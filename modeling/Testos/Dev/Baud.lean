import Testos.Foundation.Rounding
import Testos.Types

/-! The baud rate of `pl011.c`.

`pl011_init` divides the clock by sixteen times the baud rate, writes the quotient to one
register and, to another, the fraction in 64ths. By its comment that is four times the
remainder over the baud rate, rounded; the code takes eight times the remainder and
truncates. `pl011_divisor_iff`: the divisor written is the one the comment states if and
only if its fraction is below one 64th. -/
namespace Testos.Dev
open Foundation

/-! ### Registers -/

/-- `UART_IBRD`. -/
def uartIbrd : Word := 0x24

/-- `UART_FBRD`. -/
def uartFbrd : Word := 0x28

/-- `UART_LCR_H`. -/
def uartLcrH : Word := 0x2c

/-- `UART_CR`. -/
def uartCr : Word := 0x30

/-- `UART_ICR`. -/
def uartIcr : Word := 0x44

/-- `UART_CR_UARTEN | UART_CR_TXE | UART_CR_RXE`. -/
def uartCrEnable : BitVec 32 := 1 <<< 0 ||| 1 <<< 8 ||| 1 <<< 9

/-- `UART_LCR_H_WLEN_8 | UART_LCR_H_FEN`. -/
def uartLcrH8 : BitVec 32 := 3 <<< 5 ||| 1 <<< 4

/-- A `write32`. -/
structure Write32 where
  addr : Word
  val : BitVec 32
deriving DecidableEq

/-- The values written to an address, in order. -/
def writtenTo (addr : Word) (writes : List Write32) : List (BitVec 32) :=
  (writes.filter fun w => w.addr = addr).map Write32.val

/-- `pl011_init`: what it writes. -/
def pl011Init (uartBase : Word) (uartClock uartBaudrate : BitVec 32) : List Write32 :=
  let divider := uartClock / (16 * uartBaudrate)
  let remainder := uartClock % (16 * uartBaudrate)
  let fraction := 8 * remainder / uartBaudrate
  [⟨uartBase + uartCr, 0⟩, ⟨uartBase + uartIcr, 0x7ff⟩, ⟨uartBase + uartIbrd, divider⟩,
    ⟨uartBase + uartFbrd, fraction⟩, ⟨uartBase + uartLcrH, uartLcrH8⟩, ⟨uartBase + uartCr, uartCrEnable⟩]

/-! ### The divisor -/

/-- `baud_div` of the comment. -/
def baudDiv (clock baud : ℕ) : ℚ := clock / (16 * baud)

/-- The writes set the divisor as the comment says, and so to within half a 64th. -/
structure SetsDivisor (uartBase : Word) (clock baud : ℕ) (writes : List Write32) (ibrd fbrd : BitVec 32) : Prop where
  ibrdWritten : writtenTo (uartBase + uartIbrd) writes = [ibrd]
  fbrdWritten : writtenTo (uartBase + uartFbrd) writes = [fbrd]
  ibrd_eq : (ibrd.toNat : ℤ) = ⌊baudDiv clock baud⌋
  fbrd_eq : (fbrd.toNat : ℤ) = ⌊(baudDiv clock baud - ⌊baudDiv clock baud⌋) * 64 + 1 / 2⌋
  near : |(ibrd.toNat : ℚ) + fbrd.toNat / 64 - baudDiv clock baud| ≤ 1 / 128

section Exact
variable {clock baud : ℕ}

theorem baudDiv_floor : ⌊baudDiv clock baud⌋ = (clock / (16 * baud) : ℕ) := by
  have hcast : baudDiv clock baud = (clock : ℚ) / ((16 * baud : ℕ) : ℚ) := by
    rw [baudDiv]
    push_cast
    rfl
  rw [hcast, Rat.floor_natCast_div_natCast, Int.natCast_ediv]

variable (hbaud : 0 < baud)
include hbaud

/-- The fraction, in terms of the remainder. -/
theorem baudDiv_fraction :
    baudDiv clock baud - (clock / (16 * baud) : ℕ) = ((clock % (16 * baud) : ℕ) : ℚ) / (16 * baud) := by
  have hne : (baud : ℚ) ≠ 0 := Nat.cast_ne_zero.mpr (Nat.ne_of_gt hbaud)
  have hdivision : (clock : ℚ) = (16 * baud : ℕ) * (clock / (16 * baud) : ℕ) + (clock % (16 * baud) : ℕ) := by
    rw [← Nat.cast_mul, ← Nat.cast_add, Nat.div_add_mod]
  have hclock : baudDiv clock baud =
      ((16 * baud : ℕ) * (clock / (16 * baud) : ℕ) + (clock % (16 * baud) : ℕ)) / (16 * baud) := by
    rw [baudDiv, ← hdivision]
  rw [hclock]
  push_cast
  field_simp
  ring

/-- The value the comment asks for. -/
theorem fbrd_formula :
    ⌊(baudDiv clock baud - ⌊baudDiv clock baud⌋) * 64 + 1 / 2⌋ =
      ((8 * (clock % (16 * baud)) + baud) / (2 * baud) : ℕ) := by
  have hscaled : (baudDiv clock baud - ⌊baudDiv clock baud⌋) * 64 = ((4 * (clock % (16 * baud)) : ℕ) : ℚ) / baud := by
    rw [baudDiv_floor, Int.cast_natCast, baudDiv_fraction hbaud]
    push_cast
    field_simp
    ring
  rw [hscaled, floor_half_up hbaud, ← Nat.mul_assoc]

/-- The distance from the divisor, for a fraction of `f` 64ths. -/
theorem divisor_error (f : ℕ) :
    |((clock / (16 * baud) : ℕ) : ℚ) + f / 64 - baudDiv clock baud| ≤ 1 / 128 ↔
      |(f : ℚ) - (8 * (clock % (16 * baud)) : ℕ) / (2 * baud)| ≤ 1 / 2 := by
  have hne : (baud : ℚ) ≠ 0 := Nat.cast_ne_zero.mpr (Nat.ne_of_gt hbaud)
  have hscale : ((clock / (16 * baud) : ℕ) : ℚ) + f / 64 - baudDiv clock baud =
      ((f : ℚ) - (8 * (clock % (16 * baud)) : ℕ) / (2 * baud)) / 64 := by
    have hdiff : ((clock / (16 * baud) : ℕ) : ℚ) + f / 64 - baudDiv clock baud =
        f / 64 - ((clock % (16 * baud) : ℕ) : ℚ) / (16 * baud) := by
      rw [← baudDiv_fraction hbaud]
      ring
    rw [hdiff]
    push_cast
    field_simp
    ring
  rw [hscale, abs_div, abs_of_pos (show (0 : ℚ) < 64 by norm_num), div_le_iff₀ (by norm_num)]
  norm_num

end Exact

/-! ### What is written -/

/-- Each of the two registers is written once. -/
theorem writtenTo_pl011Init (uartBase : Word) (clock baud : BitVec 32) :
    writtenTo (uartBase + uartIbrd) (pl011Init uartBase clock baud) = [clock / (16 * baud)] ∧
      writtenTo (uartBase + uartFbrd) (pl011Init uartBase clock baud) = [8 * (clock % (16 * baud)) / baud] := by
  simp [writtenTo, pl011Init, uartCr, uartIcr, uartIbrd, uartFbrd, uartLcrH]

section Written
variable {clock baud : BitVec 32} (hclock : 16 * baud.toNat ≤ clock.toNat)
include hclock

theorem toNat_divider : (clock / (16 * baud)).toNat = clock.toNat / (16 * baud.toNat) ∧
    (clock % (16 * baud)).toNat = clock.toNat % (16 * baud.toNat) := by
  have hlt := clock.isLt
  have hsixteen : (16 * baud).toNat = 16 * baud.toNat := by
    rw [BitVec.toNat_mul]
    exact Nat.mod_eq_of_lt (show 16 * baud.toNat < 2 ^ 32 by omega)
  rw [BitVec.toNat_udiv, BitVec.toNat_umod, hsixteen]
  exact ⟨rfl, rfl⟩

variable (hfit : 8 * (clock.toNat % (16 * baud.toNat)) < 2 ^ 32)
include hfit

theorem toNat_fraction :
    (8 * (clock % (16 * baud)) / baud).toNat = 8 * (clock.toNat % (16 * baud.toNat)) / baud.toNat := by
  have height : (8 * (clock % (16 * baud))).toNat = 8 * (clock.toNat % (16 * baud.toNat)) := by
    rw [BitVec.toNat_mul, (toNat_divider hclock).2]
    exact Nat.mod_eq_of_lt hfit
  rw [BitVec.toNat_udiv, height]

variable (hbaud : 0 < 16 * baud.toNat)
include hbaud

/-- The value of `UART_FBRD` is right while it is at most one, -/
theorem fraction_eq_iff :
    ((8 * (clock % (16 * baud)) / baud).toNat : ℤ) =
        ⌊(baudDiv clock.toNat baud.toNat - ⌊baudDiv clock.toNat baud.toNat⌋) * 64 + 1 / 2⌋ ↔
      4 * (clock.toNat % (16 * baud.toNat)) < baud.toNat := by
  have hpos : 0 < baud.toNat := Nat.pos_of_mul_pos_left hbaud
  rw [fbrd_formula hpos, toNat_fraction hclock hfit, Int.natCast_inj, eq_comm, half_up_eq_div_iff hpos]
  omega

/-- and so is the divisor as a whole. -/
theorem divisor_near_iff :
    |((clock / (16 * baud)).toNat : ℚ) + (8 * (clock % (16 * baud)) / baud).toNat / 64 -
        baudDiv clock.toNat baud.toNat| ≤ 1 / 128 ↔
      4 * (clock.toNat % (16 * baud.toNat)) < baud.toNat := by
  have hpos : 0 < baud.toNat := Nat.pos_of_mul_pos_left hbaud
  rw [(toNat_divider hclock).1, toNat_fraction hclock hfit, divisor_error hpos, div_near_half_iff hpos]
  omega

end Written

/-- **The baud rate divisor.** `pl011_init` sets the divisor its comment states if and
only if four times the remainder is below the baud rate; otherwise the divisor is too far
from the true one, too. -/
theorem pl011_divisor_iff (uartBase : Word) (clock baud : BitVec 32) (hbaud : 0 < 16 * baud.toNat)
    (hclock : 16 * baud.toNat ≤ clock.toNat) (hfit : 8 * (clock.toNat % (16 * baud.toNat)) < 2 ^ 32) :
    ((∃ ibrd fbrd, SetsDivisor uartBase clock.toNat baud.toNat (pl011Init uartBase clock baud) ibrd fbrd) ↔
        4 * (clock.toNat % (16 * baud.toNat)) < baud.toNat) ∧
      ∃ ibrd fbrd, writtenTo (uartBase + uartIbrd) (pl011Init uartBase clock baud) = [ibrd] ∧
        writtenTo (uartBase + uartFbrd) (pl011Init uartBase clock baud) = [fbrd] ∧
        (ibrd.toNat : ℤ) = ⌊baudDiv clock.toNat baud.toNat⌋ ∧
        (|(ibrd.toNat : ℚ) + fbrd.toNat / 64 - baudDiv clock.toNat baud.toNat| ≤ 1 / 128 ↔
          4 * (clock.toNat % (16 * baud.toNat)) < baud.toNat) := by
  obtain ⟨hibrd, hfbrd⟩ := writtenTo_pl011Init uartBase clock baud
  have hinteger : ((clock / (16 * baud)).toNat : ℤ) = ⌊baudDiv clock.toNat baud.toNat⌋ := by
    rw [baudDiv_floor, (toNat_divider hclock).1]
  have hnear := divisor_near_iff hclock hfit hbaud
  refine ⟨⟨fun h => ?_, fun hsmall => ?_⟩, _, _, hibrd, hfbrd, hinteger, hnear⟩
  · obtain ⟨ibrd, fbrd, hset⟩ := h
    have hwritten := hfbrd.symm.trans hset.fbrdWritten
    rw [List.singleton_inj] at hwritten
    rw [← fraction_eq_iff hclock hfit hbaud, hwritten]
    exact hset.fbrd_eq
  · exact ⟨_, _, hibrd, hfbrd, hinteger, (fraction_eq_iff hclock hfit hbaud).mpr hsmall, hnear.mpr hsmall⟩

/-- A divisor just below 1 and one 64th, at 115200 baud. -/
theorem pl011_divisor_close :
    ((∃ ibrd fbrd, SetsDivisor 0x4140000 (1871999 : BitVec 32).toNat (115200 : BitVec 32).toNat
        (pl011Init 0x4140000 1871999 115200) ibrd fbrd) ↔
        4 * ((1871999 : BitVec 32).toNat % (16 * (115200 : BitVec 32).toNat)) < (115200 : BitVec 32).toNat) ∧
      ∃ ibrd fbrd, writtenTo (0x4140000 + uartIbrd) (pl011Init 0x4140000 1871999 115200) = [ibrd] ∧
        writtenTo (0x4140000 + uartFbrd) (pl011Init 0x4140000 1871999 115200) = [fbrd] ∧
        (ibrd.toNat : ℤ) = ⌊baudDiv (1871999 : BitVec 32).toNat (115200 : BitVec 32).toNat⌋ ∧
        (|(ibrd.toNat : ℚ) + fbrd.toNat / 64 -
            baudDiv (1871999 : BitVec 32).toNat (115200 : BitVec 32).toNat| ≤ 1 / 128 ↔
          4 * ((1871999 : BitVec 32).toNat % (16 * (115200 : BitVec 32).toNat)) < (115200 : BitVec 32).toNat) :=
  pl011_divisor_iff 0x4140000 1871999 115200 (by simp) (by simp) (by simp)

/-- With the 10 MHz of QEMU the divisor is 5.425; what is written is 5 and 54 64ths, where
27 are right. -/
theorem pl011_divisor_qemu :
    writtenTo (0x10000000 + uartIbrd) (pl011Init 0x10000000 10000000 115200) = [5] ∧
      writtenTo (0x10000000 + uartFbrd) (pl011Init 0x10000000 10000000 115200) = [54] ∧
      ⌊(baudDiv 10000000 115200 - ⌊baudDiv 10000000 115200⌋) * 64 + 1 / 2⌋ = 27 ∧
      ¬ ∃ ibrd fbrd, SetsDivisor 0x10000000 10000000 115200 (pl011Init 0x10000000 10000000 115200) ibrd fbrd := by
  have hfbrd : writtenTo (0x10000000 + uartFbrd) (pl011Init 0x10000000 10000000 115200) = [54] := rfl
  have hformula : ⌊(baudDiv 10000000 115200 - ⌊baudDiv 10000000 115200⌋) * 64 + 1 / 2⌋ = 27 := by
    rw [fbrd_formula (by simp)]
    rfl
  refine ⟨rfl, hfbrd, hformula, fun h => ?_⟩
  obtain ⟨ibrd, fbrd, hset⟩ := h
  have hwritten := hfbrd.symm.trans hset.fbrdWritten
  have heq := hset.fbrd_eq
  rw [List.singleton_inj] at hwritten
  rw [hformula, ← hwritten] at heq
  exact absurd heq (by simp)

end Testos.Dev
