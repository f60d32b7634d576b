/-
  Security/SeccompBpf.lean --- the classic-BPF verifier and interpreter of
  src/security/seccomp_bpf.c.

  A filter is a list of sock_filter instructions (code, jt, jf, k).
  seccomp_bpf_validate checks every instruction against the masks of its
  class, requires a final BPF_RET, and then runs a data-flow pass over the
  program that rejects any read of a scratch word that some path reaches
  without a store.  That pass is one ascending visit of the indices (all
  jumps are forward) and is ForwardPass.run with the facts memory_masks,
  the flags reachable, and bitwise and as meet.

  seccomp_bpf_run interprets a program against the 64 bytes of a
  seccomp_data snapshot.  seccompBpfExec is one iteration of its loop: it
  either returns (a BPF_RET, or SECCOMP_RET_KILL_THREAD from a division by
  zero or one of the default branches) or gives the pc of the next
  iteration, the loop's pc++ included.  The loop runs with fuel length: pc
  grows by at least one per iteration, so the fuel lasts exactly as long as
  the source's loop condition pc < length.  Besides the value, the model
  records the pcs the loop visits and how it left the loop.

  The scratch memory is uint32_t memory[BPF_MEMWORDS]; it is a function on
  Nat here, and an index of 16 or more, which is out of bounds in the source,
  is never used by a validated program.
-/
import Uinxed.Lib.ForwardPass
import Mathlib.Data.UInt

set_option autoImplicit false

namespace Uinxed.Seccomp

/-! ## Encoding

The names of the header's codes unfold under simp, so that the class and
operation tests of the verifier and the interpreter compute on a known code;
the masks stay folded, so that a hypothesis on the class of an unknown code
rewrites them. -/

/-- BPF_CLASS. -/
def bpfClass (code : UInt16) : UInt16 := code &&& 0x07
/-- BPF_OP. -/
def bpfOp (code : UInt16) : UInt16 := code &&& 0xf0
/-- BPF_SRC. -/
def bpfSrc (code : UInt16) : UInt16 := code &&& 0x08
/-- BPF_RVAL. -/
def bpfRval (code : UInt16) : UInt16 := code &&& 0x18
/-- BPF_MISCOP. -/
def bpfMiscop (code : UInt16) : UInt16 := code &&& 0xf8

@[simp] def bpfLd : UInt16 := 0x00
@[simp] def bpfLdx : UInt16 := 0x01
@[simp] def bpfSt : UInt16 := 0x02
@[simp] def bpfStx : UInt16 := 0x03
@[simp] def bpfAlu : UInt16 := 0x04
@[simp] def bpfJmp : UInt16 := 0x05
@[simp] def bpfRet : UInt16 := 0x06
@[simp] def bpfMisc : UInt16 := 0x07

@[simp] def bpfW : UInt16 := 0x00
@[simp] def bpfImm : UInt16 := 0x00
@[simp] def bpfAbs : UInt16 := 0x20
@[simp] def bpfMem : UInt16 := 0x60
@[simp] def bpfLen : UInt16 := 0x80

@[simp] def bpfAdd : UInt16 := 0x00
@[simp] def bpfSub : UInt16 := 0x10
@[simp] def bpfMul : UInt16 := 0x20
@[simp] def bpfDiv : UInt16 := 0x30
@[simp] def bpfOr : UInt16 := 0x40
@[simp] def bpfAnd : UInt16 := 0x50
@[simp] def bpfLsh : UInt16 := 0x60
@[simp] def bpfRsh : UInt16 := 0x70
@[simp] def bpfNeg : UInt16 := 0x80
@[simp] def bpfMod : UInt16 := 0x90
@[simp] def bpfXor : UInt16 := 0xa0

@[simp] def bpfJa : UInt16 := 0x00
@[simp] def bpfJeq : UInt16 := 0x10
@[simp] def bpfJgt : UInt16 := 0x20
@[simp] def bpfJge : UInt16 := 0x30
@[simp] def bpfJset : UInt16 := 0x40
@[simp] def bpfK : UInt16 := 0x00
@[simp] def bpfX : UInt16 := 0x08
@[simp] def bpfA : UInt16 := 0x10
@[simp] def bpfTax : UInt16 := 0x00
@[simp] def bpfTxa : UInt16 := 0x80

/-- BPF_MEMWORDS. -/
@[simp] def bpfMemwords : UInt32 := 16

/-- SECCOMP_MAX_INSNS_PER_FILTER. -/
def seccompMaxInsnsPerFilter : Nat := 4096

/-- SECCOMP_RET_KILL_THREAD. -/
def seccompRetKillThread : UInt32 := 0x00000000

/-- sizeof(struct seccomp_data): nr, arch, instruction_pointer and six
arguments. -/
def seccompDataSize : Nat := 64

def eok : Int := 0
def einval : Int := 22

/-- struct sock_filter. -/
structure SockFilter where
  code : UInt16
  jt : UInt8
  jf : UInt8
  k : UInt32
  deriving DecidableEq, Repr

/-! ## The verifier -/

/-- seccomp_bpf_valid_load: a word-aligned absolute load inside
seccomp_data. -/
def seccompBpfValidLoad (code : UInt16) (offset : UInt32) : Bool :=
  code = bpfLd ||| bpfW ||| bpfAbs && offset &&& 3 = 0 && offset.toNat ≤ seccompDataSize - 4

/-- The ALU operations seccomp_bpf_valid_alu accepts besides BPF_NEG. -/
def aluBinaryOps : List UInt16 := [bpfAdd, bpfSub, bpfMul, bpfOr, bpfAnd, bpfLsh, bpfRsh, bpfXor]

/-- seccomp_bpf_valid_alu: BPF_NEG exactly, or a known operation with a
shift width below 32 and a non-zero constant divisor. -/
def seccompBpfValidAlu (code : UInt16) (k : UInt32) : Bool :=
  let op := bpfOp code
  let src := bpfSrc code
  if code = bpfAlu ||| bpfNeg then true
  else if src ≠ bpfK ∧ src ≠ bpfX then false
  else if op ∈ aluBinaryOps then src = bpfX || (op ≠ bpfLsh && op ≠ bpfRsh) || k < 32
  else if op = bpfDiv then src = bpfX || k ≠ 0
  else false

/-- seccomp_bpf_valid_jump: both targets of the jump at index stay inside
the program. -/
def seccompBpfValidJump (ins : SockFilter) (index length : Nat) : Bool :=
  let op := bpfOp ins.code
  if ins.code = bpfJmp ||| bpfJa then ins.k.toNat < length - index - 1
  else if bpfSrc ins.code ≠ bpfK ∧ bpfSrc ins.code ≠ bpfX then false
  else if op ≠ bpfJeq ∧ op ≠ bpfJgt ∧ op ≠ bpfJge ∧ op ≠ bpfJset then false
  else
    let remaining := length - index - 1
    ins.jt.toNat < remaining && ins.jf.toNat < remaining

/-- The check of one instruction in the first loop of
seccomp_bpf_validate. -/
def seccompBpfValidInsn (ins : SockFilter) (i length : Nat) : Bool :=
  let code := ins.code
  let cls := bpfClass code
  if cls = bpfLd then
    seccompBpfValidLoad code ins.k || code = bpfLd ||| bpfW ||| bpfLen || code = bpfLd ||| bpfImm ||
      (code = bpfLd ||| bpfMem && ins.k < bpfMemwords)
  else if cls = bpfLdx then
    code = bpfLdx ||| bpfW ||| bpfLen || code = bpfLdx ||| bpfImm || (code = bpfLdx ||| bpfMem && ins.k < bpfMemwords)
  else if cls = bpfSt ∨ cls = bpfStx then !(code ≠ cls || ins.k ≥ bpfMemwords)
  else if cls = bpfAlu then seccompBpfValidAlu code ins.k
  else if cls = bpfJmp then seccompBpfValidJump ins i length
  else if cls = bpfRet then code = bpfRet ||| bpfK || code = bpfRet ||| bpfA
  else if cls = bpfMisc then code = bpfMisc ||| bpfTax || code = bpfMisc ||| bpfTxa
  else false

/-- (uint16_t)(1U << k), the bit of scratch word k in a memory mask. -/
def memoryBit (k : UInt32) : UInt16 := ((1 : UInt32) <<< k).toUInt16

/-- The instruction at index i of the program, the no-op BPF_LD|BPF_IMM
beyond its end (the pass never looks there). -/
def insnAt (prog : List SockFilter) (i : Nat) : SockFilter :=
  prog.getD i ⟨bpfLd ||| bpfImm, 0, 0, 0⟩

/-- The data-flow check of instruction i: a scratch load needs its word's
bit in the mask. -/
def memoryCheck (prog : List SockFilter) (i : Nat) (mask : UInt16) : Bool :=
  let ins := insnAt prog i
  !((ins.code = bpfLd ||| bpfMem || ins.code = bpfLdx ||| bpfMem) && mask &&& memoryBit ins.k = 0)

/-- The mask after instruction i: a store sets its word's bit. -/
def memoryOut (prog : List SockFilter) (i : Nat) (mask : UInt16) : UInt16 :=
  let ins := insnAt prog i
  if ins.code = bpfSt ∨ ins.code = bpfStx then mask ||| memoryBit ins.k else mask

/-- The successors the data-flow pass gives instruction ins at index i: none
after a BPF_RET, the target of BPF_JA, both targets of a conditional jump,
and the next instruction otherwise. -/
def bpfSuccessors (ins : SockFilter) (i : Nat) : List Nat :=
  if bpfClass ins.code = bpfRet then []
  else if ins.code = bpfJmp ||| bpfJa then [i + 1 + ins.k.toNat]
  else if bpfClass ins.code = bpfJmp then [i + 1 + ins.jt.toNat, i + 1 + ins.jf.toNat]
  else [i + 1]

/-- The successors of instruction i of the program. -/
def memorySuccessors (prog : List SockFilter) (i : Nat) : List Nat :=
  bpfSuccessors (insnAt prog i) i

/-- memory_masks and reachable as seccomp_bpf_validate zeroes them, with
index 0 reachable. -/
def memoryFactsInit : ForwardPass.Facts UInt16 :=
  { val := fun _ => 0, reached := fun i => decide (i = 0) }

/-- The data-flow pass of seccomp_bpf_validate; none when it returns
-EINVAL. -/
def seccompBpfDataflow (prog : List SockFilter) : Option (ForwardPass.Facts UInt16) :=
  ForwardPass.run (· &&& ·) (memoryCheck prog) (memoryOut prog) (memorySuccessors prog) memoryFactsInit
    prog.length

/-- seccomp_bpf_validate. -/
def seccompBpfValidate (prog : List SockFilter) : Int :=
  let length := prog.length
  if length = 0 ∨ length > seccompMaxInsnsPerFilter then -einval
  else if !(prog.zipIdx.all fun p => seccompBpfValidInsn p.1 p.2 length) then -einval
  else if bpfClass (insnAt prog (length - 1)).code ≠ bpfRet then -einval
  else match seccompBpfDataflow prog with
    | none => -einval
    | some _ => eok

/-! ## The interpreter -/

/-- seccomp_bpf_load_word: four bytes of the snapshot at offset, little
endian. -/
def seccompBpfLoadWord (data : Nat → UInt8) (offset : UInt32) : UInt32 :=
  let b (i : Nat) : UInt32 := (data (offset.toNat + i)).toUInt32
  b 0 ||| b 1 <<< 8 ||| b 2 <<< 16 ||| b 3 <<< 24

/-- The registers of seccomp_bpf_run. -/
structure BpfMachine where
  accumulator : UInt32
  index : UInt32
  memory : Nat → UInt32

/-- All registers and scratch words zero. -/
def BpfMachine.init : BpfMachine := ⟨0, 0, fun _ => 0⟩

/-- How seccomp_bpf_run leaves its loop. -/
inductive BpfExit
  | ret (v : UInt32)
  | divByZero
  | unknownOp
  | fallOff
  deriving DecidableEq, Repr

/-- The value seccomp_bpf_run returns. -/
def BpfExit.value : BpfExit → UInt32
  | .ret v => v
  | _ => seccompRetKillThread

/-- The outcome of one iteration of the loop. -/
inductive BpfNext
  | next (pc : Nat) (m : BpfMachine)
  | exit (e : BpfExit)

/-- The ALU switch of seccomp_bpf_run. -/
def seccompBpfAlu (op : UInt16) (accumulator operand : UInt32) : UInt32 ⊕ BpfExit :=
  if op = bpfAdd then .inl (accumulator + operand)
  else if op = bpfSub then .inl (accumulator - operand)
  else if op = bpfMul then .inl (accumulator * operand)
  else if op = bpfDiv then (if operand = 0 then .inr .divByZero else .inl (accumulator / operand))
  else if op = bpfOr then .inl (accumulator ||| operand)
  else if op = bpfAnd then .inl (accumulator &&& operand)
  else if op = bpfLsh then .inl (if operand < 32 then accumulator <<< operand else 0)
  else if op = bpfRsh then .inl (if operand < 32 then accumulator >>> operand else 0)
  else if op = bpfNeg then .inl (0 - accumulator)
  else if op = bpfMod then (if operand = 0 then .inr .divByZero else .inl (accumulator % operand))
  else if op = bpfXor then .inl (accumulator ^^^ operand)
  else .inr .unknownOp

/-- The conditional-jump switch of seccomp_bpf_run: whether the jump is
taken, none for the default branch. -/
def seccompBpfJumpTaken (op : UInt16) (accumulator operand : UInt32) : Option Bool :=
  if op = bpfJeq then some (accumulator == operand)
  else if op = bpfJgt then some (decide (accumulator > operand))
  else if op = bpfJge then some (decide (accumulator ≥ operand))
  else if op = bpfJset then some (accumulator &&& operand != 0)
  else none

/-- One iteration of the loop of seccomp_bpf_run on the instruction at pc. -/
def seccompBpfExec (ins : SockFilter) (data : Nat → UInt8) (pc : Nat) (m : BpfMachine) : BpfNext :=
  let code := ins.code
  let cls := bpfClass code
  if cls = bpfLd then
    let a := if code = bpfLd ||| bpfW ||| bpfAbs then seccompBpfLoadWord data ins.k
      else if code = bpfLd ||| bpfW ||| bpfLen then seccompDataSize.toUInt32
      else if code = bpfLd ||| bpfImm then ins.k
      else m.memory ins.k.toNat
    .next (pc + 1) { m with accumulator := a }
  else if cls = bpfLdx then
    let x := if code = bpfLdx ||| bpfW ||| bpfLen then seccompDataSize.toUInt32
      else if code = bpfLdx ||| bpfImm then ins.k
      else m.memory ins.k.toNat
    .next (pc + 1) { m with index := x }
  else if cls = bpfSt then
    .next (pc + 1) { m with memory := Function.update m.memory ins.k.toNat m.accumulator }
  else if cls = bpfStx then
    .next (pc + 1) { m with memory := Function.update m.memory ins.k.toNat m.index }
  else if cls = bpfAlu then
    let operand := if bpfSrc code = bpfX then m.index else ins.k
    match seccompBpfAlu (bpfOp code) m.accumulator operand with
    | .inl a => .next (pc + 1) { m with accumulator := a }
    | .inr e => .exit e
  else if cls = bpfJmp then
    if code = bpfJmp ||| bpfJa then .next (pc + ins.k.toNat + 1) m
    else
      let operand := if bpfSrc code = bpfX then m.index else ins.k
      match seccompBpfJumpTaken (bpfOp code) m.accumulator operand with
      | some taken => .next (pc + (if taken then ins.jt else ins.jf).toNat + 1) m
      | none => .exit .unknownOp
  else if cls = bpfRet then .exit (.ret (if bpfRval code = bpfA then m.accumulator else ins.k))
  else if cls = bpfMisc then
    .next (pc + 1) (if bpfMiscop code = bpfTax then { m with index := m.accumulator }
      else { m with accumulator := m.index })
  else .exit .unknownOp

/-- The scratch word one iteration of seccomp_bpf_run reads: the memory[k]
fall-through of its BPF_LD and BPF_LDX cases. -/
def scratchRead (ins : SockFilter) : Option Nat :=
  let code := ins.code
  let cls := bpfClass code
  if cls = bpfLd then
    if code = bpfLd ||| bpfW ||| bpfAbs ∨ code = bpfLd ||| bpfW ||| bpfLen ∨ code = bpfLd ||| bpfImm then none
    else some ins.k.toNat
  else if cls = bpfLdx then
    if code = bpfLdx ||| bpfW ||| bpfLen ∨ code = bpfLdx ||| bpfImm then none else some ins.k.toNat
  else none

/-- The scratch word one iteration of seccomp_bpf_run writes: its BPF_ST and
BPF_STX cases. -/
def scratchWrite (ins : SockFilter) : Option Nat :=
  let cls := bpfClass ins.code
  if cls = bpfSt ∨ cls = bpfStx then some ins.k.toNat else none

/-- The loop of seccomp_bpf_run from pc: the pcs it visits and how it ends. -/
def seccompBpfLoop (prog : List SockFilter) (data : Nat → UInt8) : Nat → Nat → BpfMachine → List Nat × BpfExit
  | 0, _, _ => ([], .fallOff)
  | fuel + 1, pc, m =>
    match prog[pc]? with
    | none => ([], .fallOff)
    | some ins =>
      match seccompBpfExec ins data pc m with
      | .exit e => ([pc], e)
      | .next pc' m' =>
        let rest := seccompBpfLoop prog data fuel pc' m'
        (pc :: rest.1, rest.2)

/-- seccomp_bpf_run, with the pcs it visits. -/
def seccompBpfExecute (prog : List SockFilter) (data : Nat → UInt8) : List Nat × BpfExit :=
  seccompBpfLoop prog data prog.length 0 BpfMachine.init

/-- The registers and scratch words the loop of seccomp_bpf_run holds when it
executes the instruction that ends it. -/
def seccompBpfLastMachine (prog : List SockFilter) (data : Nat → UInt8) : Nat → Nat → BpfMachine → BpfMachine
  | 0, _, m => m
  | fuel + 1, pc, m =>
    match prog[pc]? with
    | none => m
    | some ins =>
      match seccompBpfExec ins data pc m with
      | .exit _ => m
      | .next pc' m' => seccompBpfLastMachine prog data fuel pc' m'

/-- seccomp_bpf_run. -/
def seccompBpfRun (prog : List SockFilter) (data : Nat → UInt8) : UInt32 :=
  (seccompBpfExecute prog data).2.value

end Uinxed.Seccomp
