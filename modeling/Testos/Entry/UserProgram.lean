import Testos.Foundation.Stack
import Testos.Lib.String
import Testos.Mem.Session

/-! The `run` command of `entry.c`.

`run_user_prog` copies the embedded program to a fixed address, which `mem.c` knows
nothing of: the region is in the middle of the heap. `user_prog_loaded_iff`: the
program is loaded as it should, and no block handed out before is touched, exactly
when the heap's cursor is away from the region. -/
namespace Testos.Entry
open Foundation Mem Lib

/-! ### The command -/

/-- Addresses of the link that `run_user_prog` uses. -/
structure UserLink where
  userProgStart : Word
  userProgEnd : Word
  userPhdrs : Word
  randomBytes : Word
  userProg : Word

/-- `start_addr`. -/
def startAddr : Word := 0x80800000

/-- The bytes cleared from there. -/
def regionSize : Nat := 0x4000

/-- The size of the user's stack. -/
def userStackSize : Word := 64 * 1024

def UserLink.size (link : UserLink) : Word := link.userProgEnd - link.userProgStart

/-- What `prepare_user_stack` pushes: the auxiliary vector, `envp`, `argv` and `argc`,
each from its end. -/
def UserLink.stackWords (link : UserLink) : List Word :=
  [0, 0, link.randomBytes, 25, 4096, 6, 2, 5, 56, 4, link.userPhdrs, 3, 0, 0, link.userProg, 1]

/-- The aligned end of a stack. -/
def stackTop (stackBottom stackSize : Word) : Word := (stackBottom + stackSize) &&& ~~~0xF

/-- `prepare_user_stack`. -/
def prepareUserStack (link : UserLink) (memory : Memory) (stackBottom stackSize : Word) : Memory × Word :=
  memory.pushes (stackTop stackBottom stackSize) link.stackWords

/-- The region with the program in it. -/
def loadUserProg (link : UserLink) (memory : Memory) : Memory :=
  memcpy (memset memory startAddr 0 0x4000) startAddr link.userProgStart link.size

/-- What `run_user_prog` did up to its jump: the stack `malloc` gave it, and the stack
pointer if it jumps. -/
structure UserRun where
  memory : Memory
  heap : HeapInfo
  userStack : Word
  sp : Option Word
  output : List Event

/-- `run_user_prog`, up to its jump. -/
def runUserProg (link : UserLink) (memory : Memory) (heap : HeapInfo) : UserRun :=
  let loading := loggerInfo (.lit "Loading user program to 0x%llx (size: %d bytes)...\n")
    [.word startAddr, .word link.size]
  let memory := loadUserProg link memory
  let got := malloc userStackSize heap
  if got.ptr = null then
    { memory
      heap := got.heap
      userStack := got.ptr
      sp := none
      output := loading :: got.output ++ [loggerError (.lit "Failed to allocate user stack!\n") []] }
  else
    let (memory, sp) := prepareUserStack link memory got.ptr userStackSize
    { memory
      heap := got.heap
      userStack := got.ptr
      sp := some sp
      output := loading :: got.output ++
        [loggerInfo (.lit "Jumping to user program at 0x%llx with sp=0x%llx...\n")
          [.word startAddr, .word sp]] }

/-! ### Histories -/

/-- What happens to the heap before: a `malloc` that succeeds, or a `run`, whose program
does `program` to memory and returns. -/
inductive HeapUse where
  | malloc (size : Word)
  | run (program : Memory → Memory)

def useHeap (link : UserLink) (s : Session) : HeapUse → Option Session
  | .malloc size => if (Mem.malloc size s.heap).ptr = null then none else step s (.malloc size)
  | .run program =>
    let ran := runUserProg link s.memory s.heap
    let returned := [loggerInfo (.lit "User program returned.\n") []]
    some (if ran.sp.isSome then
      s.got (.malloc userStackSize) ⟨ran.userStack, ran.heap, ran.output ++ returned⟩ (program ran.memory)
    else s.got (.malloc userStackSize) ⟨ran.userStack, ran.heap, ran.output⟩ ran.memory)

/-! ### Loading right -/

/-- A program of at most 16 KB in an image that ends below `0x80400000`. -/
structure UserLink.Embedded (link : UserLink) : Prop where
  ordered : link.userProgStart.toNat ≤ link.userProgEnd.toNat
  size_le : link.userProgEnd.toNat - link.userProgStart.toNat ≤ regionSize
  below : link.userProgEnd.toNat ≤ 0x80400000

/-- The region holds the program, and zeros behind it; the blocks hold what they held. -/
structure LoadedRight (link : UserLink) (memory : Memory) (grants : List Grant) (memory' : Memory) :
    Prop where
  image : ∀ x, Within startAddr link.size.toNat x →
    memory' x = memory (link.userProgStart + (x - startAddr))
  cleared : ∀ x, Within startAddr regionSize x → ¬ Within startAddr link.size.toNat x → memory' x = 0
  undisturbed : ∀ g ∈ grants, ∀ x, Within g.ptr g.call.bytes x → memory' x = memory x

/-- With this heap and these blocks, whatever program is embedded and whatever memory
holds: if `run_user_prog` jumps, everything is loaded right. -/
def LoadsRight (heap : HeapInfo) (grants : List Grant) : Prop :=
  ∀ link memory sp, link.Embedded → (runUserProg link memory heap).sp = some sp →
    LoadedRight link memory grants (runUserProg link memory heap).memory

/-- No stack for the program. -/
def Refused (heap : HeapInfo) : Prop := (malloc userStackSize heap).ptr = null

/-- The lowest address the program's stack is prepared at. -/
def stackPointer (heap : HeapInfo) : Word := stackTop (malloc userStackSize heap).ptr userStackSize - 128

/-- The region, the blocks and the words on the new stack do not meet. -/
structure Clear (heap : HeapInfo) (grants : List Grant) : Prop where
  blocks : ∀ g ∈ grants, Separate g.ptr g.call.bytes startAddr regionSize
  stack : Separate (stackPointer heap) 128 startAddr regionSize
  fresh : ∀ g ∈ grants, Separate g.ptr g.call.bytes (stackPointer heap) 128

/-! ### What a run writes -/

theorem UserLink.Embedded.size {link : UserLink} (h : link.Embedded) :
    link.size.toNat = link.userProgEnd.toNat - link.userProgStart.toNat :=
  BitVec.toNat_sub_of_le h.ordered

theorem within_region {n : Nat} {x : Word} (hn : n ≤ regionSize) :
    Within startAddr n x ↔ 0x80800000 ≤ x.toNat ∧ x.toNat < 0x80800000 + n := by
  have hsize : regionSize = 0x4000 := rfl
  have haddr : startAddr.toNat = 0x80800000 := rfl
  rw [within_iff (by omega), haddr]

theorem loadUserProg_apply {link : UserLink} (h : link.Embedded) (memory : Memory) (x : Word) :
    loadUserProg link memory x =
      if Within startAddr link.size.toNat x then memory (link.userProgStart + (x - startAddr))
      else if Within startAddr regionSize x then 0 else memory x := by
  have hsize := h.size
  have hle := h.size_le
  have hbelow := h.below
  have hordered := h.ordered
  have hregion : regionSize = 0x4000 := rfl
  -- the program's own bytes are below the region
  have hsource : ∀ i < link.size.toNat,
      ¬ Within startAddr regionSize (link.userProgStart + BitVec.ofNat 64 i) := by
    intro i hi hin
    rw [within_region (Nat.le_refl _), BitVec.toNat_add, BitVec.toNat_ofNat] at hin
    omega
  have hpart : ∀ {y}, Within startAddr link.size.toNat y → Within startAddr regionSize y := by
    intro y hy
    exact Nat.lt_of_lt_of_le hy (by omega)
  rw [loadUserProg, memcpy, Memory.copy_apply _ _ _ _ (by omega) fun i hi hin => hsource i hi (hpart hin)]
  have hfill : ∀ y, memset memory startAddr 0 0x4000 y =
      if Within startAddr regionSize y then 0 else memory y := fun y =>
    Memory.fill_apply memory startAddr 0 0x4000 (by decide) y
  rw [hfill, hfill]
  by_cases hin : Within startAddr link.size.toNat x
  · obtain ⟨i, hi, rfl⟩ := hin.offset
    have hoff : startAddr + BitVec.ofNat 64 i - startAddr = BitVec.ofNat 64 i := by bv_omega
    rw [if_pos hin, if_pos hin, hoff, if_neg (hsource i hi)]
  · rw [if_neg hin, if_neg hin]

theorem runUserProg_refused {heap : HeapInfo} (h : Refused heap) (link : UserLink) (memory : Memory) :
    (runUserProg link memory heap).sp = none := by
  unfold runUserProg
  simp only [if_pos (show (malloc userStackSize heap).ptr = null from h)]

theorem runUserProg_jumps {heap : HeapInfo} (h : ¬ Refused heap) (link : UserLink) (memory : Memory) :
    (runUserProg link memory heap).sp = some (stackPointer heap) ∧
      (runUserProg link memory heap).memory = ((loadUserProg link memory).pushes
        (stackTop (malloc userStackSize heap).ptr userStackSize) link.stackWords).1 := by
  unfold runUserProg
  simp only [if_neg (show ¬ (malloc userStackSize heap).ptr = null from h), prepareUserStack]
  exact ⟨congrArg some (Memory.pushes_sp _ _ _), trivial⟩

theorem runUserProg_heap (link : UserLink) (memory : Memory) (heap : HeapInfo) :
    (runUserProg link memory heap).userStack = (malloc userStackSize heap).ptr ∧
      (runUserProg link memory heap).heap = (malloc userStackSize heap).heap := by
  unfold runUserProg
  by_cases h : (malloc userStackSize heap).ptr = null
  · simp only [if_pos h, and_self]
  · simp only [if_neg h, and_self]

theorem UserLink.stackWords_fit (link : UserLink) : 8 * link.stackWords.length ≤ 2 ^ 64 := by
  show 8 * 16 ≤ 2 ^ 64
  decide

/-- Off the stack's words, a run leaves what loading left. -/
theorem runUserProg_other {heap : HeapInfo} (h : ¬ Refused heap) (link : UserLink) (memory : Memory)
    {x : Word} (hx : ¬ Within (stackPointer heap) 128 x) :
    (runUserProg link memory heap).memory x = loadUserProg link memory x := by
  rw [(runUserProg_jumps h link memory).2]
  exact Memory.pushes_other _ link.stackWords_fit hx

/-- On them, it leaves the same whatever was there. -/
theorem runUserProg_stack {heap : HeapInfo} (h : ¬ Refused heap) (link : UserLink)
    (memory memory' : Memory) {x : Word} (hx : Within (stackPointer heap) 128 x) :
    (runUserProg link memory heap).memory x = (runUserProg link memory' heap).memory x := by
  rw [(runUserProg_jumps h link memory).2, (runUserProg_jumps h link memory').2]
  exact Memory.pushes_within _ _ link.stackWords_fit (.inr hx)

/-! ### Right exactly when clear -/

/-- An embedded program of no bytes. -/
def emptyLink : UserLink := ⟨0x80300000, 0x80300000, 0x80210000, 0x80210080, 0x80200f00⟩

/-- An embedded program that fills the region. -/
def fullLink : UserLink := ⟨0x80300000, 0x80304000, 0x80210000, 0x80210080, 0x80200f00⟩

theorem emptyLink_embedded : emptyLink.Embedded := ⟨by decide, by decide, by decide⟩

theorem fullLink_embedded : fullLink.Embedded := ⟨by decide, by decide, by decide⟩

theorem loadsRight_of_refused {heap : HeapInfo} (h : Refused heap) (grants : List Grant) :
    LoadsRight heap grants := by
  intro link memory sp _ hsp
  rw [runUserProg_refused h] at hsp
  cases hsp

theorem loadsRight_of_clear {heap : HeapInfo} {grants : List Grant} (h : Clear heap grants) :
    LoadsRight heap grants := by
  by_cases hrefused : Refused heap
  · exact loadsRight_of_refused hrefused grants
  intro link memory sp hembedded _
  have hsize := hembedded.size
  have hle := hembedded.size_le
  have hregion : ∀ {x}, Within startAddr link.size.toNat x → Within startAddr regionSize x := by
    intro x hx
    exact Nat.lt_of_lt_of_le hx (by omega)
  have hloaded : ∀ {x}, ¬ Within (stackPointer heap) 128 x →
      (runUserProg link memory heap).memory x =
        if Within startAddr link.size.toNat x then memory (link.userProgStart + (x - startAddr))
        else if Within startAddr regionSize x then 0 else memory x := by
    intro x hx
    rw [runUserProg_other hrefused link memory hx, loadUserProg_apply hembedded]
  refine ⟨fun x hx => ?_, fun x hx hout => ?_, fun g hg x hx => ?_⟩
  · rw [hloaded fun hstack => h.stack x hstack (hregion hx), if_pos hx]
  · rw [hloaded fun hstack => h.stack x hstack hx, if_neg hout, if_pos hx]
  · have hout := h.blocks g hg x hx
    rw [hloaded (h.fresh g hg x hx), if_neg fun hin => hout (hregion hin), if_neg hout]

/-- Where two of the three meet, some program or some memory goes wrong. -/
theorem clear_of_loadsRight {heap : HeapInfo} {grants : List Grant} (hrefused : ¬ Refused heap)
    (h : LoadsRight heap grants) : Clear heap grants := by
  have hright : ∀ link b, link.Embedded →
      LoadedRight link (fun _ => b) grants (runUserProg link (fun _ => b) heap).memory :=
    fun link b hembedded => h link _ _ hembedded (runUserProg_jumps hrefused link _).1
  have hone : (0 : Byte) ≠ 1 := by decide
  refine ⟨fun g hg x hx hregion => ?_, fun x hstack hregion => ?_, fun g hg x hx hstack => ?_⟩
  · -- a block's byte would have to stay 1, and be cleared
    have hempty := hright emptyLink 1 emptyLink_embedded
    have hout : ¬ Within startAddr emptyLink.size.toNat x := Nat.not_lt_zero _
    exact hone ((hempty.cleared x hregion hout).symm.trans (hempty.undisturbed g hg x hx))
  · -- the stack's byte would have to be 0 and 1, as the program has it
    have hin : Within startAddr fullLink.size.toNat x := hregion
    have hsame := runUserProg_stack hrefused fullLink (fun _ => 0) (fun _ => 1) hstack
    rw [(hright fullLink 0 fullLink_embedded).image x hin,
      (hright fullLink 1 fullLink_embedded).image x hin] at hsame
    exact hone hsame
  · -- and here as the block has it
    have hsame := runUserProg_stack hrefused emptyLink (fun _ => 0) (fun _ => 1) hstack
    rw [(hright emptyLink 0 emptyLink_embedded).undisturbed g hg x hx,
      (hright emptyLink 1 emptyLink_embedded).undisturbed g hg x hx] at hsame
    exact hone hsame

theorem loadsRight_iff (heap : HeapInfo) (grants : List Grant) :
    LoadsRight heap grants ↔ Refused heap ∨ Clear heap grants := by
  constructor
  · intro h
    by_cases hrefused : Refused heap
    · exact .inl hrefused
    · exact .inr (clear_of_loadsRight hrefused h)
  · intro h
    rcases h with h | h
    · exact loadsRight_of_refused h grants
    · exact loadsRight_of_clear h

end Testos.Entry
