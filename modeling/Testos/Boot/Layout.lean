import Mathlib.Order.CompletePartialOrder
import Mathlib.Order.Interval.Set.Disjoint
import Testos.Mem.Heap

/-! Where the linker puts things.

`link.lds` lays the kernel out from the load address, one section after the other:
`.text`, the gateway, `.rodata`, `.data`, `.bss`. Each is placed with `> RAM`, at the
region's next free address, so the counter that `link.lds` sets to
`__LOAD_ADDR__ + 0x4000` ahead of the gateway moves nothing. The label `_heap_start`
that `mem_init` reads is not a linker symbol but the end of `boot.S`'s own `.bss`, and
the Makefile links `boot_asm.o` first, so the `.bss` of every other object comes after
it. `heap_clear_iff` says exactly when the heap `mem_init` computes stays clear of the
kernel all the same. -/
namespace Testos.Boot
open Foundation Mem

/-! ### The linker's placement -/

/-- An input section: its size, and the exponent of its alignment. -/
structure Input where
  size : Nat
  log2align : Nat
deriving DecidableEq

/-- The location counter after an input section. -/
def place (dot : Nat) (i : Input) : Nat := roundUp dot (2 ^ i.log2align) + i.size

def placeAll (dot : Nat) (inputs : List Input) : Nat := inputs.foldl place dot

/-- An output section starts at the strictest alignment of its inputs. -/
def sectionStart (dot : Nat) (inputs : List Input) : Nat :=
  roundUp dot (2 ^ inputs.foldl (fun n i => max n i.log2align) 0)

theorem roundUp_pow_ge (n k : Nat) : n ≤ roundUp n (2 ^ k) :=
  (roundUp_bounds n (Nat.two_pow_pos k)).1

theorem placeAll_ge (dot : Nat) (inputs : List Input) : dot ≤ placeAll dot inputs := by
  induction inputs generalizing dot with
  | nil => exact Nat.le_refl dot
  | cons i rest ih =>
    have hstep : dot ≤ place dot i := Nat.le_trans (roundUp_pow_ge dot i.log2align) (Nat.le_add_right _ _)
    exact Nat.le_trans hstep (ih (place dot i))

/-! ### The kernel's sections -/

/-- `STACK_SIZE`. -/
def stackSize : Nat := 0x2000

/-- The input sections the objects bring to the link, in the order `link.lds` collects
them. The `.bss` lists are those of the objects other than `boot_asm.o`. -/
structure Objects where
  text : List Input
  gateway : List Input
  rodata : List Input
  data : List Input
  bss : List Input
  bssDot : List Input
  sbss : List Input
  sbssDot : List Input
  common : List Input
deriving DecidableEq

namespace Objects
variable (o : Objects)

/-- `boot_asm.o`'s `.bss`: the kernel stack, on a page boundary. -/
def bootBss : Input := ⟨roundUp stackSize 4096, 12⟩

/-- The inputs of `.bss`, `boot_asm.o` first. -/
def bssInputs : List Input :=
  bootBss :: (o.bss ++ o.bssDot ++ o.sbss ++ o.sbssDot ++ o.common)

def textEnd : Nat := placeAll (sectionStart loadAddr.toNat o.text) o.text

/-- `__syscall_gateway_end`. -/
def gatewayEnd : Nat := roundUp (placeAll (sectionStart o.textEnd o.gateway) o.gateway) 4096

def rodataEnd : Nat := placeAll (roundUp (sectionStart o.gatewayEnd o.rodata) 8) o.rodata

def dataEnd : Nat := placeAll (roundUp (sectionStart o.rodataEnd o.data) 8) o.data

/-- `__bss_start`. -/
def bssStart : Nat := roundUp (sectionStart o.dataEnd o.bssInputs) 8

/-- `__bss_end`. -/
def bssEnd : Nat := roundUp (placeAll o.bssStart o.bssInputs) 8

/-- `_stack_bottom`, at the start of `boot_asm.o`'s `.bss`. -/
def stackBottom : Nat := roundUp o.bssStart 4096

/-- `_stack_top`. -/
def stackTop : Nat := o.stackBottom + stackSize

/-- `_heap_start`, on the next page boundary. -/
def heapStart : Nat := roundUp o.stackTop 4096

/-- A link whose `.text` ends where `link.lds` would have the gateway, or below, with the
kernel inside the memory below the reserve. -/
structure Admitted : Prop where
  text : o.textEnd ≤ loadAddr.toNat + 0x4000
  memory : o.bssEnd ≤ memStart.toNat + memSize.toNat - 32 * 1024 * 1024

/-- The kernel as loaded. -/
def kernel : Set Nat := Set.Ico loadAddr.toNat o.bssEnd

/-- The heap `mem_init` computes for this link. -/
def heap : HeapInfo := (memInit (BitVec.ofNat 64 o.heapStart)).1

def heapRange : Set Nat := Set.Ico o.heap.start.toNat o.heap.endAddr.toNat

/-! ### Order of the symbols -/

theorem heapStart_aligned : 4096 ∣ o.heapStart := (roundUp_bounds _ (by decide)).2.2

/-- The label sits inside `.bss`: the other objects' share is above it. -/
theorem heapStart_le_bssEnd : o.heapStart ≤ o.bssEnd := by
  have hboot : place o.bssStart bootBss = o.heapStart := by
    have hdvd : 4096 ∣ o.stackTop := Nat.dvd_add (roundUp_bounds _ (by decide)).2.2 (by decide)
    rw [heapStart, roundUp_of_dvd (by decide) hdvd]
    rfl
  have hrest := placeAll_ge (place o.bssStart bootBss)
    (o.bss ++ o.bssDot ++ o.sbss ++ o.sbssDot ++ o.common)
  rw [hboot] at hrest
  have hall : placeAll o.bssStart o.bssInputs =
      placeAll (place o.bssStart bootBss) (o.bss ++ o.bssDot ++ o.sbss ++ o.sbssDot ++ o.common) := rfl
  rw [← hboot] at hrest ⊢
  rw [bssEnd, hall]
  exact Nat.le_trans hrest (roundUp_bounds _ (by decide)).1

theorem loadAddr_le_heapStart : loadAddr.toNat ≤ o.heapStart := by
  have hsection (dot : Nat) (inputs : List Input) :
      dot ≤ roundUp (sectionStart dot inputs) 8 :=
    Nat.le_trans (roundUp_pow_ge _ _) (roundUp_bounds _ (by decide)).1
  calc loadAddr.toNat ≤ o.textEnd := Nat.le_trans (roundUp_pow_ge _ _) (placeAll_ge _ _)
    _ ≤ placeAll (sectionStart o.textEnd o.gateway) o.gateway :=
      Nat.le_trans (roundUp_pow_ge _ _) (placeAll_ge _ _)
    _ ≤ o.gatewayEnd := (roundUp_bounds _ (by decide)).1
    _ ≤ o.rodataEnd := Nat.le_trans (hsection _ _) (placeAll_ge _ _)
    _ ≤ o.dataEnd := Nat.le_trans (hsection _ _) (placeAll_ge _ _)
    _ ≤ o.bssStart := hsection _ _
    _ ≤ o.stackBottom := (roundUp_bounds _ (by decide)).1
    _ ≤ o.stackTop := Nat.le_add_right _ _
    _ ≤ o.heapStart := (roundUp_bounds _ (by decide)).1

variable {o}

/-- The heap starts at the label, or at the four-megabyte floor if that is above it. -/
theorem Admitted.heap_start (h : o.Admitted) :
    o.heap.start.toNat = max o.heapStart 0x80400000 := by
  have hmem : o.bssEnd ≤ 0x8e000000 := h.memory
  have hle : o.heapStart ≤ 0x8e000000 := Nat.le_trans o.heapStart_le_bssEnd hmem
  have hnat : (BitVec.ofNat 64 o.heapStart).toNat = o.heapStart := by
    rw [BitVec.toNat_ofNat, Nat.mod_eq_of_lt (by omega)]
  rw [heap, memInit_start _ (by omega), hnat]
  apply roundUp_of_dvd (by decide)
  rcases Nat.le_total o.heapStart 0x80400000 with hlow | hhigh
  · rw [Nat.max_eq_right hlow]
    decide
  · rw [Nat.max_eq_left hhigh]
    exact o.heapStart_aligned

theorem Admitted.heap_end (_ : o.Admitted) : o.heap.endAddr.toNat = 0x8e000000 := rfl

/-- A kernel that ends above both the floor and the label shares the heap's first byte. -/
theorem Admitted.overlap (h : o.Admitted) (hfloor : 0x80400000 < o.bssEnd)
    (hlabel : o.heapStart < o.bssEnd) : ¬ Disjoint o.heapRange o.kernel := by
  have hmem : o.bssEnd ≤ 0x8e000000 := h.memory
  have hstart := h.heap_start
  have hload := o.loadAddr_le_heapStart
  intro hdisjoint
  have hheap : o.heap.start.toNat ∈ o.heapRange := ⟨Nat.le_refl _, by rw [h.heap_end]; omega⟩
  have hkernel : o.heap.start.toNat ∈ o.kernel := ⟨by omega, by omega⟩
  exact Set.disjoint_left.mp hdisjoint hheap hkernel

end Objects

/-- **When the heap is clear of the kernel**: exactly when `.bss` ends at the
four-megabyte floor or below, or ends at `_heap_start` because no other object has
any. -/
theorem heap_clear_iff (o : Objects) (h : o.Admitted) :
    Disjoint o.heapRange o.kernel ↔ o.bssEnd ≤ 0x80400000 ∨ o.bssEnd = o.heapStart := by
  constructor
  · intro hdisjoint
    by_contra hnot
    have hle := o.heapStart_le_bssEnd
    exact h.overlap (by omega) (by omega) hdisjoint
  · intro hend
    have hle := o.heapStart_le_bssEnd
    have hstart := h.heap_start
    have hbelow : o.bssEnd ≤ o.heap.start.toNat := by omega
    rw [Set.disjoint_left]
    intro x hx hx'
    exact absurd (Nat.lt_of_lt_of_le hx'.2 hbelow) (Nat.not_lt.mpr hx.1)

/-- A link with an embedded program of `program` bytes and otherwise usual sizes. -/
def usualLink (program : Nat) : Objects :=
  { text := [⟨0x3400, 2⟩]
    gateway := [⟨2076, 4⟩]
    rodata := [⟨5000, 3⟩]
    data := [⟨program, 8⟩]
    bss := [⟨2400, 3⟩]
    bssDot := []
    sbss := [⟨8, 3⟩]
    sbssDot := []
    common := [] }

theorem heap_clear_usual : Disjoint (usualLink 6600).heapRange (usualLink 6600).kernel :=
  (heap_clear_iff (usualLink 6600) ⟨by decide, by decide⟩).mpr (.inl (by decide))

/-- A program of two megabytes pushes the other objects' `.bss` into the heap. -/
theorem heap_overlaps_large : (usualLink 0x200000).Admitted ∧
    ¬ Disjoint (usualLink 0x200000).heapRange (usualLink 0x200000).kernel := by
  have hadmitted : (usualLink 0x200000).Admitted := ⟨by decide, by decide⟩
  exact ⟨hadmitted, hadmitted.overlap (by decide) (by decide)⟩

end Testos.Boot
