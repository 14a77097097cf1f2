import Testos.Entry.UserProgram

/-! What a user program finds on its stack.

`prepare_user_stack` pushes from the far end what a start-up routine reads from the
stack pointer on. `user_stack_read`: on a stack of any size that has room for the words,
at any address, the pointer is aligned, nothing but the words is written, and the reader
finds one argument, no environment and the auxiliary vector. -/
namespace Testos.Entry
open Foundation

/-! ### The reader -/

/-- `AT_NULL`. -/
def atNull : Word := 0

/-- `AT_PHDR`. -/
def atPhdr : Word := 3

/-- `AT_PHENT`. -/
def atPhent : Word := 4

/-- `AT_PHNUM`. -/
def atPhnum : Word := 5

/-- `AT_PAGESZ`. -/
def atPagesz : Word := 6

/-- `AT_RANDOM`. -/
def atRandom : Word := 25

/-- What a program is started with. -/
structure StartUp where
  argc : Word
  argv : List Word
  envp : List Word
  auxv : List (Word × Word)
deriving DecidableEq

/-- The pointers from place `i` up to a NULL, and the place after that. -/
def untilNull (word : Nat → Word) : Nat → Nat → Option (List Word × Nat)
  | 0, _ => none
  | fuel + 1, i =>
    if word i = null then some ([], i + 1)
    else (untilNull word fuel (i + 1)).map fun (ps, next) => (word i :: ps, next)

/-- The pairs of a type and a value from place `i` up to one of type `AT_NULL`. -/
def pairsUntilNull (word : Nat → Word) : Nat → Nat → Option (List (Word × Word))
  | 0, _ => none
  | fuel + 1, i =>
    if word i = atNull then some []
    else (pairsUntilNull word fuel (i + 2)).map fun ps => (word i, word (i + 1)) :: ps

/-- The start-up convention, read from the stack pointer on: `argc`, so many pointers
and a NULL, more pointers and a NULL, and pairs. Each of the last two has less than
`fuel` entries. -/
def readStartUp (m : Memory) (sp : Word) (fuel : Nat) : Option StartUp :=
  let word := m.wordAt sp
  let argc := (word 0).toNat
  if word (argc + 1) ≠ null then none
  else
    (untilNull word fuel (argc + 2)).bind fun (envp, next) =>
      (pairsUntilNull word fuel next).map fun auxv =>
        { argc := word 0
          argv := (List.range argc).map fun k => word (k + 1)
          envp
          auxv }

/-! ### What it finds -/

/-- What `run_user_prog` means a program to be started with. -/
def UserLink.startUp (link : UserLink) : StartUp where
  argc := 1
  argv := [link.userProg]
  envp := []
  auxv :=
    [(atPhdr, link.userPhdrs), (atPhent, 56), (atPhnum, 2), (atPagesz, 4096), (atRandom, link.randomBytes)]

/-- A reader of the words, in the order they stand in, finds it. -/
theorem readStartUp_words {link : UserLink} {m : Memory} {sp : Word}
    (h : ∀ i < 16, m.wordAt sp i = link.stackWords.reverse.getD i 0) {fuel : Nat} (hfuel : 6 ≤ fuel) :
    readStartUp m sp fuel = some link.startUp := by
  obtain ⟨fuel, rfl⟩ := Nat.exists_eq_add_of_le' hfuel
  have hword : ∀ i < 16, m.wordAt sp i = [1, link.userProg, 0, 0, 3, link.userPhdrs, 4, 56, 5, 2, 6, 4096, 25,
      link.randomBytes, 0, 0].getD i 0 := h
  have hargc : m.wordAt sp 0 = 1 := hword 0 (by decide)
  have henvp : untilNull (m.wordAt sp) (fuel + 6) 3 = some ([], 4) := by
    simp [untilNull, hword, null]
  have hauxv : pairsUntilNull (m.wordAt sp) (fuel + 6) 4 = some link.startUp.auxv := by
    simp [pairsUntilNull, hword, UserLink.startUp, atNull, atPhdr, atPhent, atPhnum, atPagesz, atRandom]
  have hone : (1 : Word).toNat = 1 := rfl
  simp only [readStartUp, hargc, hone]
  rw [if_neg (by simp [hword, null]), henvp, Option.bind_some, hauxv, Option.map_some]
  simp [UserLink.startUp, hword]

section
variable {stackBottom stackSize : Word} (hfit : stackBottom.toNat + stackSize.toNat < 2 ^ 64)
include hfit

/-- The words end within fifteen bytes of the stack's end. -/
theorem stackTop_toNat :
    (stackTop stackBottom stackSize).toNat =
      stackBottom.toNat + stackSize.toNat - (stackBottom.toNat + stackSize.toNat) % 16 := by
  have hsum : (stackBottom + stackSize).toNat = stackBottom.toNat + stackSize.toNat := by
    rw [BitVec.toNat_add, Nat.mod_eq_of_lt hfit]
  rw [← hsum]
  exact toNat_and_not_mask (stackBottom + stackSize) 16 (k := 4) rfl

variable (hsize : 144 ≤ stackSize.toNat)
include hsize

theorem prepareUserStack_sp (link : UserLink) (memory : Memory) :
    (prepareUserStack link memory stackBottom stackSize).2.toNat =
      (stackTop stackBottom stackSize).toNat - 128 := by
  have htop := stackTop_toNat hfit
  have hcount : (BitVec.ofNat 64 (8 * link.stackWords.length)).toNat = 128 := rfl
  rw [prepareUserStack, Memory.pushes_sp, BitVec.toNat_sub_of_le (by rw [BitVec.le_def, hcount]; omega), hcount]

/-- **The initial stack**: the pointer is aligned and not below the stack, only the bytes
from it to the stack's end are written, and a reader that follows the start-up convention
finds one argument, no environment, and the five entries of the auxiliary vector. -/
theorem user_stack_read (link : UserLink) (memory : Memory) :
    (prepareUserStack link memory stackBottom stackSize).2.toNat % 16 = 0 ∧
      stackBottom ≤ (prepareUserStack link memory stackBottom stackSize).2 ∧
      (∀ x : Word, ¬ ((prepareUserStack link memory stackBottom stackSize).2.toNat ≤ x.toNat ∧
          x.toNat < stackBottom.toNat + stackSize.toNat) →
        (prepareUserStack link memory stackBottom stackSize).1 x = memory x) ∧
      ∀ fuel, 6 ≤ fuel →
        readStartUp (prepareUserStack link memory stackBottom stackSize).1
          (prepareUserStack link memory stackBottom stackSize).2 fuel = some link.startUp := by
  have htop := stackTop_toNat hfit
  have hsp := prepareUserStack_sp hfit hsize link memory
  refine ⟨by omega, ?_, fun x hx => ?_, fun fuel hfuel => ?_⟩
  · rw [BitVec.le_def, hsp]
    omega
  · apply Memory.pushes_other _ link.stackWords_fit
    rw [← Memory.pushes_sp memory]
    show ¬ Within (prepareUserStack link memory stackBottom stackSize).2 128 x
    rw [within_iff (by omega)]
    omega
  · exact readStartUp_words (fun i hi => Memory.pushes_wordAt _ _ _ link.stackWords_fit hi) hfuel

end

/-- A stack at an odd address, of the least size. -/
theorem user_stack_read_odd :
    (prepareUserStack emptyLink (fun _ => 0xff) 0x80500001 144).2.toNat % 16 = 0 ∧
      (0x80500001 : Word) ≤ (prepareUserStack emptyLink (fun _ => 0xff) 0x80500001 144).2 ∧
      (∀ x : Word, ¬ ((prepareUserStack emptyLink (fun _ => 0xff) 0x80500001 144).2.toNat ≤ x.toNat ∧
          x.toNat < (0x80500001 : Word).toNat + (144 : Word).toNat) →
        (prepareUserStack emptyLink (fun _ => 0xff) 0x80500001 144).1 x = 0xff) ∧
      ∀ fuel, 6 ≤ fuel →
        readStartUp (prepareUserStack emptyLink (fun _ => 0xff) 0x80500001 144).1
          (prepareUserStack emptyLink (fun _ => 0xff) 0x80500001 144).2 fuel = some emptyLink.startUp :=
  user_stack_read (by decide) (by decide) emptyLink fun _ => 0xff

end Testos.Entry
