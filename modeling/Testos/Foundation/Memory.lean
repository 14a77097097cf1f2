import Mathlib.Algebra.Order.Ring.Nat
import Mathlib.Data.List.Induction

/-! Byte memory.

Memory is a function from 64-bit addresses to bytes, and an address `x` is in the
`n` bytes at `p` when its offset `x - p`, which wraps, is below `n`. Filling and
copying are the byte loops every C library has; a doubleword is its eight bytes,
the least significant first. -/
namespace Testos.Foundation

abbrev Byte := BitVec 8
abbrev Word := BitVec 64
abbrev Memory := Word → Byte

/-- `x` is one of the `n` bytes at `p`. -/
def Within (p : Word) (n : Nat) (x : Word) : Prop := (x - p).toNat < n

instance (p : Word) (n : Nat) (x : Word) : Decidable (Within p n x) :=
  inferInstanceAs (Decidable (_ < _))

theorem within_offset {p : Word} {n i : Nat} (hi : i < n) (hn : n ≤ 2 ^ 64) :
    Within p n (p + BitVec.ofNat 64 i) := by
  unfold Within
  rw [BitVec.add_comm, BitVec.add_sub_cancel, BitVec.toNat_ofNat, Nat.mod_eq_of_lt (by omega)]
  exact hi

theorem Within.offset {p x : Word} {n : Nat} (h : Within p n x) :
    ∃ i < n, x = p + BitVec.ofNat 64 i := by
  refine ⟨(x - p).toNat, h, ?_⟩
  rw [BitVec.ofNat_toNat, BitVec.setWidth_eq, BitVec.add_comm, BitVec.sub_add_cancel]

/-- An offset from the next address. -/
theorem succ_offset {w : Nat} (p : BitVec w) (n : Nat) :
    p + 1 + BitVec.ofNat w n = p + BitVec.ofNat w (n + 1) := by
  rw [BitVec.ofNat_add, BitVec.add_assoc, BitVec.add_comm 1]
  rfl

/-- Bytes that do not wrap are an interval of addresses. -/
theorem within_iff {p x : Word} {n : Nat} (hn : p.toNat + n ≤ 2 ^ 64) :
    Within p n x ↔ p.toNat ≤ x.toNat ∧ x.toNat < p.toNat + n := by
  unfold Within
  have hx := x.isLt
  rw [BitVec.toNat_sub]
  omega

theorem within_succ {p x : Word} {n : Nat} (hn : n < 2 ^ 64) :
    Within p (n + 1) x ↔ x = p ∨ Within (p + 1) n x := by
  unfold Within
  constructor
  · intro h
    by_cases hx : x = p
    · exact .inl hx
    · exact .inr (by bv_omega)
  · intro h
    rcases h with rfl | h
    · bv_omega
    · bv_omega

/-- A range in two parts. -/
theorem within_add {p x : Word} {n k : Nat} (hn : n < 2 ^ 64) (hk : n + k ≤ 2 ^ 64) :
    Within p (n + k) x ↔ Within p n x ∨ Within (p + BitVec.ofNat 64 n) k x := by
  unfold Within
  have hnat : (BitVec.ofNat 64 n).toNat = n := by
    rw [BitVec.toNat_ofNat, Nat.mod_eq_of_lt hn]
  have hoff : (x - (p + BitVec.ofNat 64 n)).toNat = (2 ^ 64 - n + (x - p).toNat) % 2 ^ 64 := by
    have hsub : x - (p + BitVec.ofNat 64 n) = x - p - BitVec.ofNat 64 n := by bv_omega
    rw [hsub, BitVec.toNat_sub, hnat]
  have hlt := (x - p).isLt
  omega

/-- The cells of a buffer are apart. -/
theorem cell_ne {buffer : Word} {i j : Nat} (hi : i < 2 ^ 64) (hj : j < 2 ^ 64) (h : i ≠ j) :
    buffer + BitVec.ofNat 64 i ≠ buffer + BitVec.ofNat 64 j := by
  intro he
  have hnat := congrArg BitVec.toNat ((BitVec.add_right_inj buffer).mp he)
  rw [BitVec.toNat_ofNat, BitVec.toNat_ofNat, Nat.mod_eq_of_lt hi, Nat.mod_eq_of_lt hj] at hnat
  exact h hnat

namespace Memory

/-! ### One byte -/

def store (m : Memory) (a : Word) (b : Byte) : Memory := fun x => if x = a then b else m x

@[simp] theorem store_same (m : Memory) (a : Word) (b : Byte) : m.store a b a = b := by
  simp [store]

@[simp] theorem store_other (m : Memory) {a x : Word} (b : Byte) (h : x ≠ a) :
    m.store a b x = m x := by
  simp [store, h]

/-! ### Byte loops -/

/-- `while (n--) *p++ = b`. -/
def fill (m : Memory) (p : Word) (b : Byte) : Nat → Memory
  | 0 => m
  | n + 1 => fill (m.store p b) (p + 1) b n

/-- `while (n--) *d++ = *s++`. -/
def copy (m : Memory) (d s : Word) : Nat → Memory
  | 0 => m
  | n + 1 => copy (m.store d (m s)) (d + 1) (s + 1) n

/-- `while (*s) *p++ = *s++`, for bytes that are known. -/
def write (m : Memory) (p : Word) : List Byte → Memory
  | [] => m
  | b :: bs => write (m.store p b) (p + 1) bs

theorem write_append (m : Memory) (p : Word) (bs bs' : List Byte) :
    m.write p (bs ++ bs') = (m.write p bs).write (p + BitVec.ofNat 64 bs.length) bs' := by
  induction bs generalizing m p with
  | nil => simp [write]
  | cons b bs ih =>
    rw [List.cons_append, write, ih, succ_offset, List.length_cons, write]

theorem write_concat (m : Memory) (p : Word) (bs : List Byte) (b : Byte) :
    m.write p (bs ++ [b]) = (m.write p bs).store (p + BitVec.ofNat 64 bs.length) b :=
  write_append m p bs [b]

/-- Written bytes stand where they were written. -/
theorem write_get (m : Memory) (p : Word) (bs : List Byte) (hlen : bs.length ≤ 2 ^ 64) {i : Nat}
    (hi : i < bs.length) : m.write p bs (p + BitVec.ofNat 64 i) = bs[i] := by
  induction bs using List.reverseRecOn with
  | nil => exact absurd hi (Nat.not_lt_zero i)
  | append_singleton bs b ih =>
    have hlength : (bs ++ [b]).length = bs.length + 1 := by simp
    rw [write_concat]
    by_cases hlast : i = bs.length
    · subst hlast
      simp
    · rw [store_other _ _ (cell_ne (by omega) (by omega) hlast), List.getElem_append_left (by omega)]
      exact ih (by omega) (by omega)

/-- Filled bytes are those of the range. -/
theorem fill_apply (m : Memory) (p : Word) (b : Byte) (n : Nat) (hn : n ≤ 2 ^ 64) (x : Word) :
    m.fill p b n x = if Within p n x then b else m x := by
  induction n generalizing m p with
  | zero => simp [fill, Within]
  | succ n ih =>
    rw [fill, ih _ _ (by omega)]
    by_cases hx : x = p
    · subst hx
      simp [within_succ (show n < 2 ^ 64 by omega)]
    · simp [within_succ (show n < 2 ^ 64 by omega), hx]

/-- Filling on behind a fill. -/
theorem fill_add (m : Memory) (p : Word) (b : Byte) {n k : Nat} (hn : n < 2 ^ 64) (hk : n + k ≤ 2 ^ 64) :
    (m.fill p b n).fill (p + BitVec.ofNat 64 n) b k = m.fill p b (n + k) := by
  funext x
  rw [fill_apply _ _ _ _ (by omega), fill_apply _ _ _ _ (by omega), fill_apply _ _ _ _ hk]
  by_cases hx : Within p n x <;> by_cases hx' : Within (p + BitVec.ofNat 64 n) k x <;>
    simp [within_add hn hk, hx, hx']

/-- A forward copy moves the source as it was when no byte is read after it was written. -/
theorem copy_forward (m : Memory) (d s : Word) (n : Nat) (hn : n ≤ 2 ^ 64)
    (hfresh : ∀ i j, j < i → i < n → s + BitVec.ofNat 64 i ≠ d + BitVec.ofNat 64 j) (x : Word) :
    m.copy d s n x = if Within d n x then m (s + (x - d)) else m x := by
  induction n generalizing m d s with
  | zero => simp [copy, Within]
  | succ n ih =>
    have hsucc (y : Word) := within_succ (p := d) (x := y) (show n < 2 ^ 64 by omega)
    have htail : ∀ i j, j < i → i < n → s + 1 + BitVec.ofNat 64 i ≠ d + 1 + BitVec.ofNat 64 j := by
      intro i j hji hi
      rw [succ_offset, succ_offset]
      exact hfresh (i + 1) (j + 1) (by omega) (by omega)
    rw [copy, ih _ _ _ (by omega) htail]
    by_cases hx : x = d
    · subst hx
      have hnot : ¬ Within (x + 1) n x := by unfold Within; bv_omega
      rw [if_neg hnot, if_pos ((hsucc x).mpr (.inl rfl)), store_same, BitVec.sub_self, BitVec.add_zero]
    · by_cases hw : Within (d + 1) n x
      · have hoff : s + 1 + (x - (d + 1)) = s + (x - d) := by bv_omega
        have hlt : Within d (n + 1) x := (hsucc x).mpr (.inr hw)
        have hpos : 0 < (x - d).toNat := by bv_omega
        -- the first byte written is not read again
        have hsrc : s + (x - d) ≠ d := by
          have h0 := hfresh (x - d).toNat 0 hpos hlt
          rwa [BitVec.ofNat_toNat, BitVec.setWidth_eq, show d + BitVec.ofNat 64 0 = d from BitVec.add_zero d] at h0
        rw [if_pos hw, if_pos hlt, hoff, store_other _ _ hsrc]
      · have hout : ¬ Within d (n + 1) x := fun h => ((hsucc x).mp h).elim hx hw
        rw [if_neg hw, if_neg hout, store_other _ _ hx]

/-- A forward copy whose source the destination does not meet moves the source as
it was. -/
theorem copy_apply (m : Memory) (d s : Word) (n : Nat) (hn : n ≤ 2 ^ 64)
    (hdisjoint : ∀ i < n, ¬ Within d n (s + BitVec.ofNat 64 i)) (x : Word) :
    m.copy d s n x = if Within d n x then m (s + (x - d)) else m x := by
  apply copy_forward m d s n hn
  intro i j hji hi he
  apply hdisjoint i hi
  rw [he]
  exact within_offset (by omega) hn

/-! ### Doublewords -/

def load64 (m : Memory) (a : Word) : Word :=
  m (a + 7#64) ++ m (a + 6#64) ++ m (a + 5#64) ++ m (a + 4#64) ++ m (a + 3#64) ++ m (a + 2#64) ++
    m (a + 1#64) ++ m a

def store64 (m : Memory) (a v : Word) : Memory :=
  fun x => if Within a 8 x then v.extractLsb' (8 * (x - a).toNat) 8 else m x

theorem store64_other (m : Memory) (a v : Word) {x : Word} (h : ¬ Within a 8 x) :
    m.store64 a v x = m x := by
  simp [store64, h]

theorem store64_byte (m : Memory) (a v : Word) {k : Nat} (hk : k < 8) :
    m.store64 a v (a + BitVec.ofNat 64 k) = v.extractLsb' (8 * k) 8 := by
  have hw := within_offset (p := a) hk (by decide)
  have hoff : (a + BitVec.ofNat 64 k - a).toNat = k := by
    rw [BitVec.add_comm, BitVec.add_sub_cancel, BitVec.toNat_ofNat, Nat.mod_eq_of_lt (by omega)]
  rw [store64, if_pos hw, hoff]

theorem store64_zero (m : Memory) (a : Word) : m.store64 a 0 = m.fill a 0 8 := by
  funext x
  rw [fill_apply _ _ _ _ (by decide), store64]
  split <;> simp

/-- The eight bytes of a word, put together again. -/
theorem append_bytes (v : Word) :
    v.extractLsb' 56 8 ++ v.extractLsb' 48 8 ++ v.extractLsb' 40 8 ++ v.extractLsb' 32 8 ++
      v.extractLsb' 24 8 ++ v.extractLsb' 16 8 ++ v.extractLsb' 8 8 ++ v.extractLsb' 0 8 = v := by
  apply BitVec.eq_of_getLsbD_eq
  intro i hi
  simp only [BitVec.getLsbD_append, BitVec.getLsbD_extractLsb']
  grind

theorem load64_store64 (m : Memory) (a v : Word) : (m.store64 a v).load64 a = v := by
  have hbyte (k : Nat) (hk : k < 8) := store64_byte m a v hk
  have h0 := hbyte 0 (by decide)
  rw [show a + BitVec.ofNat 64 0 = a from BitVec.add_zero a] at h0
  unfold load64
  rw [h0, hbyte 1 (by decide), hbyte 2 (by decide), hbyte 3 (by decide), hbyte 4 (by decide),
    hbyte 5 (by decide), hbyte 6 (by decide), hbyte 7 (by decide)]
  exact append_bytes v

/-- Two doublewords that do not share a byte. -/
def Apart (a b : Word) : Prop := 8 ≤ (b - a).toNat ∧ 8 ≤ (a - b).toNat

theorem load64_congr {m m' : Memory} {a : Word}
    (h : ∀ k < 8, m' (a + BitVec.ofNat 64 k) = m (a + BitVec.ofNat 64 k)) :
    m'.load64 a = m.load64 a := by
  have h0 := h 0 (by decide)
  rw [show a + BitVec.ofNat 64 0 = a from BitVec.add_zero a] at h0
  unfold load64
  rw [h0, h 1 (by decide), h 2 (by decide), h 3 (by decide), h 4 (by decide), h 5 (by decide),
    h 6 (by decide), h 7 (by decide)]

theorem load64_store64_apart (m : Memory) {a b : Word} (v : Word) (h : Apart a b) :
    (m.store64 a v).load64 b = m.load64 b := by
  apply load64_congr
  intro k hk
  apply store64_other
  obtain ⟨h1, h2⟩ := h
  unfold Within
  have hkn : (BitVec.ofNat 64 k).toNat = k := by
    rw [BitVec.toNat_ofNat, Nat.mod_eq_of_lt (by omega)]
  bv_omega

end Memory

end Testos.Foundation
