import Testos.Entry.Syscalls
import Testos.Exception.Vector
import Testos.Foundation.Listing

/-! The syscall gateway of `exception.S`.

User programs call `syscall_gateway + 8 * id` with the id in `a7` and the arguments in
`a0` to `a5`. The slots and the stub are the assembly's; the compiled
`handle_syscall_direct_c` is a parameter, and `DirectConvention` is what it owes its
caller. The stub leaves the id in `a7`, where the C function never looks: its first
parameter is the caller's first argument. `gateway_serves_iff`: every call but an exit
comes back with its registers, but it is served as syscall `id` exactly when `a0` holds
the id too and the argument it displaces is not missed. -/
namespace Testos.Exception
open Foundation Riscv

/-! ### The listing -/

/-- `handle_syscall_direct`, behind 256 slots of eight bytes. -/
def handleSyscallDirect (gateway : Word) : Word := gateway + 2048

/-- `syscall_gateway`. -/
def syscallGateway (gateway : Word) : Listing :=
  (List.replicate 256 [.j (handleSyscallDirect gateway), .nop]).flatten

/-- The stub at `handle_syscall_direct`; `directC` is the address of the C function. -/
def directStub (directC : Word) : Listing :=
  [.instr (.addi Reg.sp Reg.sp (-16)),
   .instr (.sd Reg.ra 0 Reg.sp),
   .call directC,
   .instr (.ld Reg.ra 0 Reg.sp),
   .instr (.addi Reg.sp Reg.sp 16),
   .ret]

/-- The section `.syscall_gateway`. -/
def gatewaySection (gateway directC : Word) : Listing := syscallGateway gateway ++ directStub directC

/-! ### The C function -/

section
variable {E H : Type}

/-- `handle_syscall_direct_c`; `sys_exit` does not return. -/
def handleSyscallDirectC (syscallId arg1 arg2 arg3 arg4 arg5 : Word) (kernel : Kernel E H) :
    Ran E H Word :=
  let log := loggerInfo (.lit "[GATEWAY] Syscall ID: %lld, args: 0x%llx, 0x%llx, 0x%llx\n")
    [.word syscallId, .word arg1, .word arg2, .word arg3]
  if syscallId = 64 then
    let buf := arg1
    let count := arg2
    { result := some count
      kernel
      output := log :: (List.range count.toNat).map fun i =>
        .putchar (kernel.memory (buf + BitVec.ofNat 64 i)) }
  else if syscallId = 93 then
    { result := none
      kernel
      output := [log, loggerInfo (.lit "User program exited with code %lld\n") [.word arg1]] }
  else
    let ran := defaultSyscallHandler ⟨syscallId, arg1, arg2, arg3, arg4, arg5⟩ kernel
    { ran with output := log :: ran.output }

/-- Its runs: from the machine at the call what it said, and the machine at its return if
it returned. The kernel's memory is what it reads. -/
abbrev DirectCode (E H : Type) := Kernel E H → Machine → List Event → Option Machine → Prop

/-- The bytes below a stack pointer. -/
def stackBytes (sp : Word) (use : Nat) : Set Word := { a | Within (sp - BitVec.ofNat 64 use) use a }

/-- Memories that agree but for some bytes. -/
def AgreeOff (bytes : Set Word) (memory memory' : Memory) : Prop := ∀ a, a ∉ bytes → memory a = memory' a

/-- Back at the return address, with the registers a callee saves. -/
structure CameBack (m m' : Machine) : Prop where
  pc : m'.pc = m.x Reg.ra
  saved : ∀ r ∈ calleeSaved, m'.x r = m.x r
  savedFloats : ∀ r ∈ calleeSavedFloats, m'.f r = m.f r

/-- Compiled code of `handle_syscall_direct_c` that uses so many bytes of stack: it takes
its parameters from `a0` to `a5` in order, does what the source does, on memory as it was
but for its own stack, leaves its result in `a0`, and follows the calling convention. -/
structure DirectConvention (use : Nat) (call : DirectCode E H) : Prop where
  runs : ∀ kernel m, ∃ output m', call kernel m output m'
  serves : ∀ kernel m output m', call kernel m output m' →
    ∃ seen, AgreeOff (stackBytes (m.x Reg.sp) use) seen m.memory ∧
      let ran := handleSyscallDirectC (m.x Reg.a0) (m.x Reg.a1) (m.x Reg.a2) (m.x Reg.a3) (m.x Reg.a4)
        (m.x Reg.a5) { kernel with memory := seen }
      output = ran.output ∧ m'.map (·.x Reg.a0) = ran.result
  returns : ∀ kernel m output m', call kernel m output (some m') →
    CameBack m m' ∧ AgreeOff (stackBytes (m.x Reg.sp) use) m'.memory m.memory

/-! ### Calls through the gateway -/

/-- A call of the gateway's entry for a syscall. -/
structure GatewayCall (gateway id : Word) (m : Machine) : Prop where
  lt : id < 256
  pc : m.pc = gateway + 8 * id
  a7 : m.x Reg.a7 = id

/-- From the entry to the C function, through it, and from its return back. -/
def ThroughGateway (gateway directC : Word) (call : DirectCode E H) (kernel : Kernel E H) (m : Machine)
    (output : List Event) (m' : Option Machine) : Prop :=
  ∃ m₁ m₂, walk (gatewaySection gateway directC) gateway 4 m = some m₁ ∧ m₁.pc = directC ∧
    call kernel m₁ output m₂ ∧ m' = m₂.bind (walk (gatewaySection gateway directC) gateway 3)

/-! ### What the gateway documents -/

/-- The arguments of a call, `a0` to `a5` in order. -/
def callArgs (m : Machine) : Args :=
  ⟨m.x Reg.a0, m.x Reg.a1, m.x Reg.a2, m.x Reg.a3, m.x Reg.a4, m.x Reg.a5⟩

/-- The service of a syscall by its number and arguments: what it returns, and what it
prints or says. -/
def service (number : Word) (args : Args) (memory : Memory) : Word × List Event :=
  if number = 64 then
    -- `sys_write(fd, buf, count)`, to the console whatever the descriptor
    (args.arg2, (List.range args.arg2.toNat).map fun i => .putchar (memory (args.arg1 + BitVec.ofNat 64 i)))
  else if number = 93 then
    -- `sys_exit(code)`
    (0, [loggerInfo (.lit "User program exited with code %lld\n") [.word args.arg0]])
  else if number = 0 then
    -- `SYS_putchar(c)`
    (0, [logger (.lit "%c") [.word ((args.arg0.setWidth 8).setWidth 64)]])
  else if number = 1 then
    -- `SYS_puts(str)`
    (0, [logger (.lit "%s") [.string args.arg0 (cstringAt memory args.arg0)]])
  else (-1, [unknownSyscall number])

/-- The call was served as that syscall on its arguments, behind a debug line, and came
back with the syscall's value. -/
structure ServedAs (id : Word) (memory : Memory) (m : Machine) (output : List Event)
    (m' : Option Machine) : Prop where
  output : ∃ debug, output = debug :: (service id (callArgs m) memory).2
  back : ∃ m'', m' = some m'' ∧ m''.x Reg.a0 = (service id (callArgs m) memory).1 ∧ CameBack m m'' ∧
    m''.x Reg.ra = m.x Reg.ra

/-- The registers of a call suit the C function: `a0` is the id of a syscall that comes
back; and a character or a string, which `a0` should be, is in `a1` as well. -/
def Suited (id : Word) (m : Machine) : Prop :=
  m.x Reg.a0 = id ∧ id ≠ 93 ∧
    (id = 0 → (m.x Reg.a1).setWidth 8 = (m.x Reg.a0).setWidth 8) ∧
    (id = 1 → m.x Reg.a1 = m.x Reg.a0)

instance (id : Word) (m : Machine) : Decidable (Suited id m) := inferInstanceAs (Decidable (_ ∧ _))

end

/-! ### The slots and the stub -/

section
variable {gateway directC id : Word} {m : Machine}

theorem syscallGateway_size (gateway : Word) : (syscallGateway gateway).size = 2048 :=
  Listing.size_slots _ _

theorem slot_at (hid : id < 256) : (gatewaySection gateway directC).at? (id.toNat * 8) =
    some (.j (handleSyscallDirect gateway)) :=
  Listing.at?_slots (.j (handleSyscallDirect gateway)) [.nop] (directStub directC) (k := 256) hid

theorem stub_at {k : Nat} {op : Op} (hop : (directStub directC).at? k = some op) :
    (gatewaySection gateway directC).at? (2048 + k) = some op := by
  rw [gatewaySection, ← syscallGateway_size gateway, Listing.at?_append]
  exact hop

/-- The machine at the C function. -/
structure StubEntered (gateway directC : Word) (m m₁ : Machine) : Prop where
  pc : m₁.pc = directC
  ra : m₁.x Reg.ra = gateway + BitVec.ofNat 64 (2048 + 16)
  sp : m₁.x Reg.sp = m.x Reg.sp - 16
  others : ∀ r, r ≠ Reg.ra → r ≠ Reg.sp → m₁.x r = m.x r
  f : m₁.f = m.f
  memory : m₁.memory = m.memory.store64 (m.x Reg.sp - 16) (m.x Reg.ra)

/-- The arguments reach the C function. -/
theorem StubEntered.args {m₁ : Machine} (h : StubEntered gateway directC m m₁) :
    m₁.x Reg.a0 = m.x Reg.a0 ∧ m₁.x Reg.a1 = m.x Reg.a1 ∧ m₁.x Reg.a2 = m.x Reg.a2 ∧
      m₁.x Reg.a3 = m.x Reg.a3 ∧ m₁.x Reg.a4 = m.x Reg.a4 ∧ m₁.x Reg.a5 = m.x Reg.a5 := by
  refine ⟨h.others _ ?_ ?_, h.others _ ?_ ?_, h.others _ ?_ ?_, h.others _ ?_ ?_, h.others _ ?_ ?_,
    h.others _ ?_ ?_⟩ <;> decide

theorem stub_pc (gateway : Word) (k : Nat) :
    handleSyscallDirect gateway + BitVec.ofNat 64 k = gateway + BitVec.ofNat 64 (2048 + k) := by
  rw [BitVec.ofNat_add, ← BitVec.add_assoc]
  rfl

theorem gateway_enters (h : GatewayCall gateway id m) (directC : Word) : ∃ m₁,
    walk (gatewaySection gateway directC) gateway 4 m = some m₁ ∧ StubEntered gateway directC m m₁ := by
  have hid : id.toNat < 256 := h.lt
  have hslot : m.pc = gateway + BitVec.ofNat 64 (id.toNat * 8) := by
    rw [h.pc]
    congr 1
    apply BitVec.eq_of_toNat_eq
    rw [BitVec.toNat_mul, BitVec.toNat_ofNat, Nat.mul_comm]
    rfl
  have hsp : Reg.sp ≠ 0 := by decide
  have hra : Reg.ra ≠ 0 := by decide
  have hpc₀ : handleSyscallDirect gateway = gateway + BitVec.ofNat 64 (2048 + 0) := by
    rw [← stub_pc]
    exact (BitVec.add_zero _).symm
  have hpc₈ : handleSyscallDirect gateway + 4 + 4 = gateway + BitVec.ofNat 64 (2048 + 8) := by
    rw [← stub_pc, BitVec.add_assoc]
    rfl
  let x := Function.update m.x Reg.sp (m.x Reg.sp + -16)
  have hx : ∀ r, r ≠ Reg.sp → x r = m.x r := fun r hr => Function.update_of_ne hr _ _
  have hxsp : x Reg.sp = m.x Reg.sp - 16 := by
    rw [BitVec.sub_eq_add_neg]
    exact Function.update_self _ _ _
  let memory := m.memory.store64 (x Reg.sp + 0) (x Reg.ra)
  let ret := handleSyscallDirect gateway + 4 + 4 + 8
  have hret : ret = gateway + BitVec.ofNat 64 (2048 + 16) := by
    rw [← stub_pc]
    exact (BitVec.add_assoc _ _ _).trans (BitVec.add_assoc _ _ _)
  refine ⟨{ m with pc := directC, x := Function.update x Reg.ra ret, memory }, ?_, rfl, ?_, ?_, fun r hr hr' => ?_, rfl, ?_⟩
  · calc walk (gatewaySection gateway directC) gateway 4 m
      _ = walk (gatewaySection gateway directC) gateway 3 { m with pc := handleSyscallDirect gateway } :=
        walk_step 3 (slot_at h.lt) hslot (by omega) rfl
      _ = walk (gatewaySection gateway directC) gateway 2
            { m with pc := handleSyscallDirect gateway + 4, x } :=
        walk_step 2 (stub_at (k := 0) rfl) hpc₀ (by decide) (perform_addi _ hsp hsp (-16))
      _ = walk (gatewaySection gateway directC) gateway 1
            { m with pc := handleSyscallDirect gateway + 4 + 4, x, memory } :=
        walk_step 1 (stub_at (k := 4) rfl) (stub_pc gateway 4) (by decide) (perform_sd _ hra hsp 0)
      _ = _ := walk_step 0 (stub_at (k := 8) rfl) hpc₈ (by decide) (perform_call _ directC)
  · show Function.update x Reg.ra ret Reg.ra = _
    rw [Function.update_self, hret]
  · show Function.update x Reg.ra ret Reg.sp = _
    rw [Function.update_of_ne (by decide), hxsp]
  · show Function.update x Reg.ra ret r = _
    rw [Function.update_of_ne hr, hx r hr']
  · show m.memory.store64 (x Reg.sp + 0) (x Reg.ra) = _
    rw [hxsp, hx Reg.ra (by decide)]
    exact congrArg (m.memory.store64 · _) (BitVec.add_zero _)

/-- The machine behind the stub against the one the C function returned. -/
structure StubLeft (m₂ m' : Machine) : Prop where
  pc : m'.pc = m₂.memory.load64 (m₂.x Reg.sp)
  ra : m'.x Reg.ra = m₂.memory.load64 (m₂.x Reg.sp)
  sp : m'.x Reg.sp = m₂.x Reg.sp + 16
  others : ∀ r, r ≠ Reg.ra → r ≠ Reg.sp → m'.x r = m₂.x r
  f : m'.f = m₂.f
  memory : m'.memory = m₂.memory

theorem gateway_leaves {m₂ : Machine} (hpc : m₂.pc = gateway + BitVec.ofNat 64 (2048 + 16))
    (directC : Word) : ∃ m',
    walk (gatewaySection gateway directC) gateway 3 m₂ = some m' ∧ StubLeft m₂ m' := by
  have hsp : Reg.sp ≠ 0 := by decide
  have hra : Reg.ra ≠ 0 := by decide
  have hpc₂₀ : m₂.pc + 4 = gateway + BitVec.ofNat 64 (2048 + 20) := by
    rw [hpc]
    exact BitVec.add_assoc _ _ _
  have hpc₂₄ : m₂.pc + 4 + 4 = gateway + BitVec.ofNat 64 (2048 + 24) := by
    rw [hpc₂₀]
    exact BitVec.add_assoc _ _ _
  let ra := m₂.memory.load64 (m₂.x Reg.sp + 0)
  have hra₂ : ra = m₂.memory.load64 (m₂.x Reg.sp) := congrArg m₂.memory.load64 (BitVec.add_zero _)
  let x := Function.update m₂.x Reg.ra ra
  have hx : ∀ r, r ≠ Reg.ra → x r = m₂.x r := fun r hr => Function.update_of_ne hr _ _
  have hxra : x Reg.ra = ra := by simp only [x, Function.update_self]
  let x' := Function.update x Reg.sp (x Reg.sp + 16)
  have hx' : ∀ r, r ≠ Reg.sp → x' r = x r := fun r hr => Function.update_of_ne hr _ _
  have hra' : x' Reg.ra = m₂.memory.load64 (m₂.x Reg.sp) := by
    rw [hx' Reg.ra (by decide), hxra, hra₂]
  refine ⟨{ m₂ with pc := x' Reg.ra, x := x' }, ?_, hra', hra', ?_, fun r hr hr' => ?_, rfl, rfl⟩
  · calc walk (gatewaySection gateway directC) gateway 3 m₂
      _ = walk (gatewaySection gateway directC) gateway 2 { m₂ with pc := m₂.pc + 4, x } :=
        walk_step 2 (stub_at (k := 16) rfl) hpc (by decide) (perform_ld _ hra hsp 0)
      _ = walk (gatewaySection gateway directC) gateway 1 { m₂ with pc := m₂.pc + 4 + 4, x := x' } :=
        walk_step 1 (stub_at (k := 20) rfl) hpc₂₀ (by decide) (perform_addi _ hsp hsp 16)
      _ = _ := walk_step 0 (stub_at (k := 24) rfl) hpc₂₄ (by decide) (perform_ret _)
  · show x' Reg.sp = _
    simp only [x', Function.update_self]
    rw [hx Reg.sp (by decide)]
  · exact (hx' r hr').trans (hx r hr)

/-! ### The stub's frame -/

/-- What is above a stack pointer is not below it. -/
theorem above_stack (sp : Word) {use k : Nat} (hk : use + k < 2 ^ 64) :
    sp + BitVec.ofNat 64 k ∉ stackBytes sp use := by
  have hoffset : sp + BitVec.ofNat 64 k - (sp - BitVec.ofNat 64 use) = BitVec.ofNat 64 (use + k) := by
    rw [BitVec.ofNat_add]
    generalize BitVec.ofNat 64 k = a
    generalize BitVec.ofNat 64 use = b
    bv_omega
  show ¬ (_ : Word).toNat < use
  rw [hoffset, BitVec.toNat_ofNat, Nat.mod_eq_of_lt hk]
  omega

/-- The stack of the stub and of what it calls. -/
theorem stackBytes_add (sp : Word) {use : Nat} (huse : use + 16 ≤ 2 ^ 64) (a : Word) :
    a ∈ stackBytes sp (use + 16) ↔ a ∈ stackBytes (sp - 16) use ∨ Within (sp - 16) 16 a := by
  have hbase : sp - BitVec.ofNat 64 (use + 16) = sp - 16 - BitVec.ofNat 64 use := by
    rw [BitVec.ofNat_add]
    generalize BitVec.ofNat 64 use = b
    bv_omega
  show Within _ _ _ ↔ Within _ _ _ ∨ _
  rw [hbase, within_add (by omega) huse, BitVec.sub_add_cancel]

variable {m₁ : Machine} {use : Nat}

/-- Memory as the C function had it is memory as the caller had it, but for the stack. -/
theorem agree_through (huse : use + 16 ≤ 2 ^ 64) (hentered : StubEntered gateway directC m m₁)
    {memory : Memory} (h : AgreeOff (stackBytes (m₁.x Reg.sp) use) memory m₁.memory) :
    AgreeOff (stackBytes (m.x Reg.sp) (use + 16)) memory m.memory := by
  intro a ha
  obtain ⟨hbelow, hframe⟩ := not_or.mp fun h => ha ((stackBytes_add _ huse a).mpr h)
  rw [h a (by rw [hentered.sp]; exact hbelow), hentered.memory]
  exact Memory.store64_other _ _ _ fun h => hframe (Nat.lt_trans h (by decide))

/-- The stub brings the caller's registers back. -/
theorem came_back (huse : use + 16 ≤ 2 ^ 64) (hentered : StubEntered gateway directC m m₁) {m₂ m' : Machine}
    (hback : CameBack m₁ m₂) (hmemory : AgreeOff (stackBytes (m₁.x Reg.sp) use) m₂.memory m₁.memory)
    (hleft : StubLeft m₂ m') : CameBack m m' ∧ m'.x Reg.ra = m.x Reg.ra := by
  have hsp : m₂.x Reg.sp = m.x Reg.sp - 16 := (hback.saved Reg.sp (by decide)).trans hentered.sp
  have hra : m₂.memory.load64 (m₂.x Reg.sp) = m.x Reg.ra := by
    rw [hsp, ← Memory.load64_store64 m.memory (m.x Reg.sp - 16) (m.x Reg.ra), ← hentered.memory]
    refine Memory.load64_congr fun k hk => hmemory _ ?_
    rw [hentered.sp]
    exact above_stack _ (by omega)
  refine ⟨⟨hleft.pc.trans hra, fun r hr => ?_, fun r hr => ?_⟩, hleft.ra.trans hra⟩
  · by_cases h : r = Reg.sp
    · rw [h, hleft.sp, hsp, BitVec.sub_add_cancel]
    · have hne : ∀ r ∈ calleeSaved, r ≠ Reg.ra := by decide
      rw [hleft.others r (hne r hr) h, hback.saved r hr, hentered.others r (hne r hr) h]
  · rw [hleft.f, hback.savedFloats r hr, hentered.f]

end

/-! ### What the C function serves -/

section
variable {E H : Type}

/-- What a call of the C function does, from the registers. -/
def directRan (m : Machine) (kernel : Kernel E H) : Ran E H Word :=
  handleSyscallDirectC (m.x Reg.a0) (m.x Reg.a1) (m.x Reg.a2) (m.x Reg.a3) (m.x Reg.a4) (m.x Reg.a5) kernel

/-- The numbers that are served, and the others. -/
theorem number_cases (number : Word) : number = 64 ∨ number = 93 ∨ number = 0 ∨ number = 1 ∨
    number ≠ 64 ∧ number ≠ 93 ∧ number ≠ 0 ∧ number ≠ 1 := by
  by_cases h64 : number = 64
  · exact .inl h64
  by_cases h93 : number = 93
  · exact .inr (.inl h93)
  by_cases h0 : number = 0
  · exact .inr (.inr (.inl h0))
  by_cases h1 : number = 1
  · exact .inr (.inr (.inr (.inl h1)))
  · exact .inr (.inr (.inr (.inr ⟨h64, h93, h0, h1⟩)))

theorem service_unknown {number : Word} (h64 : number ≠ 64) (h93 : number ≠ 93) (h0 : number ≠ 0)
    (h1 : number ≠ 1) (args : Args) (memory : Memory) :
    service number args memory = (-1, [unknownSyscall number]) := by
  rw [service, if_neg h64, if_neg h93, if_neg h0, if_neg h1]

/-- The C function serves the syscall in `a0`, and what should be the first argument it
takes from `a1`; only `sys_exit` does not return. -/
theorem directC_service (arg0 arg1 arg2 arg3 arg4 arg5 : Word) (kernel : Kernel E H) :
    let ran := handleSyscallDirectC arg0 arg1 arg2 arg3 arg4 arg5 kernel
    let served := service arg0 ⟨arg1, arg1, arg2, arg3, arg4, arg5⟩ kernel.memory
    (∃ debug, ran.output = debug :: served.2) ∧ ran.result = if arg0 = 93 then none else some served.1 := by
  rcases number_cases arg0 with rfl | rfl | rfl | rfl | ⟨h64, h93, h0, h1⟩
  · exact ⟨⟨_, rfl⟩, rfl⟩
  · exact ⟨⟨_, rfl⟩, rfl⟩
  · exact ⟨⟨_, rfl⟩, rfl⟩
  · exact ⟨⟨_, rfl⟩, rfl⟩
  · simp only [service_unknown h64 h93 h0 h1, handleSyscallDirectC, defaultSyscallHandler, if_neg h64, if_neg h93,
      if_neg h0, if_neg h1]
    exact ⟨⟨_, rfl⟩, trivial⟩

/-- The number of a syscall, from what it said. -/
def numberOf : List Event → Word
  | .log .info _ _ :: _ => 93
  | .log .normal fmt _ :: _ => if fmt = .lit "%c" then 0 else 1
  | .log .warn _ [.word number] :: _ => number
  | _ => 64

theorem numberOf_putchars (bytes : List Byte) : numberOf (bytes.map .putchar) = 64 := by
  cases bytes <;> rfl

theorem numberOf_service (number : Word) (args : Args) (memory : Memory) :
    numberOf (service number args memory).2 = number := by
  rcases number_cases number with rfl | rfl | rfl | rfl | ⟨h64, h93, h0, h1⟩
  · exact (congrArg numberOf (List.map_map (g := Event.putchar)).symm).trans (numberOf_putchars _)
  · rfl
  · rfl
  · rfl
  · rw [service_unknown h64 h93 h0 h1]
    rfl

/-- In a suited call it makes no difference that `a1` stands for the first argument. -/
theorem service_suited {m : Machine} {id : Word} (h : Suited id m) (memory : Memory) :
    service id { callArgs m with arg0 := m.x Reg.a1 } memory = service id (callArgs m) memory := by
  obtain ⟨_, h93, hchar, hstr⟩ := h
  rcases number_cases id with rfl | rfl | rfl | rfl | ⟨h64, _, h0, h1⟩
  · rfl
  · exact absurd rfl h93
  · exact congrArg (fun c : Byte => ((0, [logger (.lit "%c") [.word (c.setWidth 64)]]) : Word × List Event)) (hchar rfl)
  · exact congrArg (fun p => ((0, [logger (.lit "%s") [.string p (cstringAt memory p)]]) : Word × List Event)) (hstr rfl)
  · rw [service_unknown h64 h93 h0 h1, service_unknown h64 h93 h0 h1]

/-- What a call did to its caller, the C function having read this memory. -/
structure Answered (memory : Memory) (kernel : Kernel E H) (m : Machine) (output : List Event)
    (m' : Option Machine) : Prop where
  output : output = (directRan m { kernel with memory }).output
  result : m'.map (·.x Reg.a0) = (directRan m { kernel with memory }).result
  back : ∀ m'' ∈ m', CameBack m m'' ∧ m''.x Reg.ra = m.x Reg.ra

section
variable {memory : Memory} {kernel : Kernel E H} {m : Machine} {id : Word} {output : List Event}
  {m' : Option Machine}

theorem Answered.service (h : Answered memory kernel m output m') :
    (∃ debug, output = debug :: (service (m.x Reg.a0) { callArgs m with arg0 := m.x Reg.a1 } memory).2) ∧
      m'.map (·.x Reg.a0) =
        if m.x Reg.a0 = 93 then none
        else some (Exception.service (m.x Reg.a0) { callArgs m with arg0 := m.x Reg.a1 } memory).1 := by
  obtain ⟨houtput, hresult, _⟩ := h
  rw [houtput, hresult]
  exact directC_service _ _ _ _ _ _ _

/-- Only a call with `a0 = 93` does not come back. -/
theorem Answered.lost (h : Answered memory kernel m output m') : m' = none ↔ m.x Reg.a0 = 93 := by
  rw [← Option.map_eq_none_iff (f := (·.x Reg.a0)), h.service.2]
  by_cases h93 : m.x Reg.a0 = 93
  · rw [if_pos h93]
    exact ⟨fun _ => h93, fun _ => rfl⟩
  · rw [if_neg h93]
    exact ⟨fun h => absurd h (Option.some_ne_none _), fun h => absurd h h93⟩

/-- A call that was served as a syscall suits the C function. -/
theorem Answered.suited (h : Answered memory kernel m output m') {memory' : Memory}
    (hserved : ServedAs id memory' m output m') : Suited id m := by
  obtain ⟨⟨debug, houtput⟩, hresult⟩ := h.service
  obtain ⟨⟨debug', houtput'⟩, m'', hm'', hvalue, _⟩ := hserved
  have hsaid := (List.cons.inj (houtput.symm.trans houtput')).2
  have hid : m.x Reg.a0 = id := by
    have := congrArg numberOf hsaid
    rwa [numberOf_service, numberOf_service] at this
  have h93 : id ≠ 93 := by
    intro h93
    rw [hm'', if_pos (hid.trans h93)] at hresult
    cases hresult
  rw [hid] at hsaid
  refine ⟨hid, h93, fun h0 => ?_, fun h1 => ?_⟩
  · have hchar : BitVec.setWidth 64 ((m.x Reg.a1).setWidth 8) = ((m.x Reg.a0).setWidth 8).setWidth 64 := by
      rw [h0] at hsaid
      have hevent := (List.cons.inj hsaid).1
      simp only [logger, Event.log.injEq, List.cons.injEq, Arg.word.injEq] at hevent
      exact hevent.2.2.1
    have := congrArg (BitVec.setWidth 8) hchar
    simpa only [BitVec.setWidth_setWidth_of_le, Nat.reduceLeDiff, BitVec.setWidth_eq] using this
  · rw [h1] at hsaid
    have hevent := (List.cons.inj hsaid).1
    simp only [logger, Event.log.injEq, List.cons.injEq, Arg.string.injEq] at hevent
    exact hevent.2.2.1.1

/-- And a suited call is served. -/
theorem Answered.served (h : Answered memory kernel m output m') (hsuited : Suited id m) :
    ServedAs id memory m output m' := by
  obtain ⟨⟨debug, houtput⟩, hresult⟩ := h.service
  have h93 : m.x Reg.a0 ≠ 93 := fun h93 => hsuited.2.1 (hsuited.1.symm.trans h93)
  rw [if_neg h93, hsuited.1, service_suited hsuited] at hresult
  rw [hsuited.1, service_suited hsuited] at houtput
  obtain ⟨m'', hm'', hvalue⟩ := Option.map_eq_some_iff.mp hresult
  obtain ⟨hcame, hra⟩ := h.back m'' hm''
  exact ⟨⟨debug, houtput⟩, m'', hm'', hvalue, hcame, hra⟩

end

/-! ### What the gateway serves -/

variable {use : Nat} {call : DirectCode E H} {gateway directC id : Word} {m : Machine}

theorem through_runs (hcall : DirectConvention use call) (h : GatewayCall gateway id m)
    (directC : Word) (kernel : Kernel E H) : ∃ output m', ThroughGateway gateway directC call kernel m output m' := by
  obtain ⟨m₁, hwalk, hentered⟩ := gateway_enters h directC
  obtain ⟨output, m₂, hcalled⟩ := hcall.runs kernel m₁
  exact ⟨output, _, m₁, m₂, hwalk, hentered.pc, hcalled, rfl⟩

/-- Whatever the entry, a call is answered from its registers, and leaves memory alone but
for the stack. -/
theorem through_answered (huse : use + 16 ≤ 2 ^ 64) (hcall : DirectConvention use call)
    (h : GatewayCall gateway id m) {kernel : Kernel E H} {output : List Event} {m' : Option Machine}
    (hthrough : ThroughGateway gateway directC call kernel m output m') :
    (∃ seen, AgreeOff (stackBytes (m.x Reg.sp) (use + 16)) seen m.memory ∧
        Answered seen kernel m output m') ∧
      ∀ m'' ∈ m', AgreeOff (stackBytes (m.x Reg.sp) (use + 16)) m''.memory m.memory := by
  obtain ⟨m₁, hwalk, hentered⟩ := gateway_enters h directC
  obtain ⟨_, m₂, hwalk', _, hcalled, rfl⟩ := hthrough
  obtain rfl := Option.some.inj (hwalk.symm.trans hwalk')
  obtain ⟨seen, hseen, houtput, hresult⟩ := hcall.serves _ _ _ _ hcalled
  obtain ⟨h0, h1, h2, h3, h4, h5⟩ := hentered.args
  rw [h0, h1, h2, h3, h4, h5] at houtput hresult
  have hagree := agree_through huse hentered hseen
  cases m₂ with
  | none => exact ⟨⟨seen, hagree, houtput, hresult, fun _ hm => by cases hm⟩, fun _ hm => by cases hm⟩
  | some m₂ =>
    obtain ⟨hback, hmemory⟩ := hcall.returns _ _ _ _ hcalled
    obtain ⟨m', hwalk'', hleft⟩ := gateway_leaves (hback.pc.trans hentered.ra) directC
    rw [Option.bind_some, hwalk'']
    refine ⟨⟨seen, hagree, houtput, ?_, fun m'' hm => ?_⟩, fun m'' hm => ?_⟩
    · rw [Option.map_some, hleft.others _ (by decide) (by decide)]
      exact hresult
    · obtain rfl := Option.some.inj hm
      exact came_back huse hentered hback hmemory hleft
    · obtain rfl := Option.some.inj hm
      rw [hleft.memory]
      exact agree_through huse hentered hmemory

/-- **The gateway serves the syscall in `a0`.** Every call through an entry reaches the C
function and, unless `a0` asks for `sys_exit`, comes back with `sp`, `ra` and the
callee-saved registers as they were. It is served as the entry's syscall, on the arguments
in the registers, exactly when the registers suit the C function. -/
theorem gateway_serves_iff (huse : use + 16 ≤ 2 ^ 64) (hcall : DirectConvention use call)
    (h : GatewayCall gateway id m) (directC : Word) (kernel : Kernel E H) :
    (∃ output m', ThroughGateway gateway directC call kernel m output m') ∧
      ∀ output m', ThroughGateway gateway directC call kernel m output m' →
        (m' = none ↔ m.x Reg.a0 = 93) ∧
        (∀ m'' ∈ m', CameBack m m'' ∧ m''.x Reg.ra = m.x Reg.ra ∧
          AgreeOff (stackBytes (m.x Reg.sp) (use + 16)) m''.memory m.memory) ∧
        ((∃ seen, AgreeOff (stackBytes (m.x Reg.sp) (use + 16)) seen m.memory ∧
            ServedAs id seen m output m') ↔
          Suited id m) := by
  refine ⟨through_runs hcall h directC kernel, fun output m' hthrough => ?_⟩
  obtain ⟨⟨seen, hseen, hanswered⟩, hmemory⟩ := through_answered huse hcall h hthrough
  refine ⟨hanswered.lost, fun m'' hm => ?_, fun hserved => ?_, fun hsuited => ?_⟩
  · obtain ⟨hcame, hra⟩ := hanswered.back m'' hm
    exact ⟨hcame, hra, hmemory m'' hm⟩
  · obtain ⟨_, _, hserved⟩ := hserved
    exact hanswered.suited hserved
  · exact ⟨seen, hseen, hanswered.served hsuited⟩

end

/-! ### A write -/

/-- Code that uses no stack. -/
def directCall : DirectCode Empty Entry.KernelSyscall := fun kernel m output m' =>
  let ran := handleSyscallDirectC (m.x Reg.a0) (m.x Reg.a1) (m.x Reg.a2) (m.x Reg.a3) (m.x Reg.a4)
    (m.x Reg.a5) { kernel with memory := m.memory }
  output = ran.output ∧
    m' = ran.result.map fun v => { m with pc := m.x Reg.ra, x := Function.update m.x Reg.a0 v }

theorem directCall_convention : DirectConvention 0 directCall where
  runs _ _ := ⟨_, _, rfl, rfl⟩
  serves kernel m output m' h := by
    obtain ⟨houtput, rfl⟩ := h
    refine ⟨m.memory, fun _ _ => rfl, houtput, ?_⟩
    rw [Option.map_map]
    simp [Function.comp_def]
  returns kernel m output m' h := by
    obtain ⟨_, h⟩ := h
    obtain ⟨v, _, rfl⟩ := Option.map_eq_some_iff.mp h.symm
    have hsaved : ∀ r ∈ calleeSaved, r ≠ Reg.a0 := by decide
    exact ⟨⟨rfl, fun r hr => Function.update_of_ne (hsaved r hr) _ _, fun _ _ => rfl⟩, fun _ _ => rfl⟩

/-- A program at the gateway's entry for `sys_write(fd, 0x80210000, 3)`. -/
def writer (fd : Word) : Machine where
  pc := 0x80204000 + 8 * 64
  x r :=
    if r = Reg.ra then 0x80210100
    else if r = Reg.sp then 0x80230000
    else if r = Reg.a0 then fd
    else if r = Reg.a1 then 0x80210000
    else if r = Reg.a2 then 3
    else if r = Reg.a7 then 64
    else 0
  f := fun _ => 0
  fcsr := 0
  sepc := 0
  scause := 0
  stval := 0
  sstatus := 0
  memory := fun _ => 0x41

theorem writer_call (fd : Word) : GatewayCall 0x80204000 64 (writer fd) := ⟨by decide, rfl, rfl⟩

theorem gateway_serves_write : ∃ output m',
    ThroughGateway 0x80204000 0x80201000 directCall Entry.emptyKernel (writer 64) output m' ∧
      ∃ seen, AgreeOff (stackBytes ((writer 64).x Reg.sp) 16) seen (writer 64).memory ∧
        ServedAs 64 seen (writer 64) output m' := by
  obtain ⟨⟨output, m', hthrough⟩, hall⟩ := gateway_serves_iff (by decide) directCall_convention
    (writer_call 64) 0x80201000 Entry.emptyKernel
  exact ⟨output, m', hthrough, (hall output m' hthrough).2.2.mpr (by decide)⟩

/-- **A write to standard output** prints a string and returns 0, whatever it was to
write. -/
theorem gateway_write_lost : ∃ output m',
    ThroughGateway 0x80204000 0x80201000 directCall Entry.emptyKernel (writer 1) output m' ∧
      m'.map (·.x Reg.a0) = some 0 ∧
      ∀ memory, ¬ ServedAs 64 memory (writer 1) output m' := by
  obtain ⟨output, m', hthrough⟩ := through_runs directCall_convention (writer_call 1) 0x80201000
    Entry.emptyKernel
  obtain ⟨⟨seen, _, hanswered⟩, _⟩ := through_answered (by decide) directCall_convention (writer_call 1) hthrough
  refine ⟨output, m', hthrough, hanswered.result, fun memory hserved => ?_⟩
  have hid : (1 : Word) = 64 := (hanswered.suited hserved).1
  exact absurd hid (by decide)

end Testos.Exception
