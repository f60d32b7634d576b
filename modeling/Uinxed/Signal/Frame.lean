/-
  Signal/Frame.lean --- the signal frame of signal_setup_frame and
  do_rt_sigreturn (src/kernel/signal/signal.c), and the FPU state they carry
  (fpu_signal_save, fpu_signal_restore, src/kernel/arch/fpu.c).

  signal_setup_frame picks the stack (the alternate one for SA_ONSTACK when
  it is valid and not already in use), skips the 128-byte red zone, rounds
  down to 16, makes room for a signal_user_frame_t, rounds down to 16 again
  and steps 8 below for the return address slot: the frame goes at that
  address, which is the handler's entry rsp.  The handler's ret pops
  pretcode, so the restorer calls rt_sigreturn with rsp 8 higher, and
  do_rt_sigreturn reads the frame at rsp - 8: the address it wrote
  (signalFrameAddr_spec).  The frame lies below the red zone, or inside the
  alternate stack when that is in use, and the entry rsp is 8 modulo 16.

  User memory is modelled at the granularity of a frame: copy_to_user of a
  signal_user_frame_t stores it at its address and copy_from_user of one
  reads what is stored there.  A handler that leaves the frame's bytes alone
  leaves the stored frame.  The registers are natural numbers: the address
  arithmetic never wraps, since every subtraction is guarded and sums stay
  below PROCESS_USER_STACK_TOP or the checked alt_base + ss_size.
  fpu_signal_save and fpu_signal_restore are modelled by their argument
  checks; the per-CPU checks they also make (no kernel FPU section, the task
  is current) hold on the signal path.
-/
import Mathlib.Algebra.GroupWithZero.Nat
import Uinxed.Signal.Queue

set_option autoImplicit false

namespace Uinxed.Signal

/-! ## Constants -/

def efault : Int := 14

def processUserStackTop : Nat := 0x7ffffffff000
def uint64Max : Nat := 2 ^ 64 - 1

def saSiginfo : Nat := 0x00000004
def saRestorer : Nat := 0x04000000
def saOnstack : Nat := 0x08000000
def ssDisable : Nat := 2

def signalFpstateMagic : Nat := 0x46505331
def fpuSignalStateMax : Nat := 4096

/-- sizeof(siginfo_t): three ints, then the union aligned to 8 at offset 16,
whose _pad[29] (116 bytes) rounds up to 120. -/
def siginfoSize : Nat := 136

/-- sizeof(signal_user_frame_t), packed: pretcode, info, old_mask, twenty
registers, fpstate_magic, fpstate_size and fpstate[4096]. -/
def signalUserFrameSize : Nat := 8 + siginfoSize + 8 + 20 * 8 + 4 + 4 + 4096

/-- offsetof(signal_user_frame_t, info) and offsetof(..., old_mask). -/
def offsetInfo : Nat := 8
def offsetOldMask : Nat := 8 + siginfoSize

/-- The rflags bits a user frame may set: CF, PF, AF, ZF, SF, TF, IF, DF,
OF, RF, AC and ID. -/
def userRflags : Nat :=
  1 <<< 0 ||| 1 <<< 2 ||| 1 <<< 4 ||| 1 <<< 6 ||| 1 <<< 7 ||| 1 <<< 8 ||| 1 <<< 9 ||| 1 <<< 10 ||| 1 <<< 11 |||
    1 <<< 16 ||| 1 <<< 18 ||| 1 <<< 21

/-! ## Frames -/

/-- The general registers of syscall_frame_t, which the signal frame saves
and do_rt_sigreturn restores one by one. -/
structure GpRegs where
  rax : Nat
  rbx : Nat
  rcx : Nat
  rdx : Nat
  rsi : Nat
  rdi : Nat
  rbp : Nat
  r8 : Nat
  r9 : Nat
  r10 : Nat
  r11 : Nat
  r12 : Nat
  r13 : Nat
  r14 : Nat
  r15 : Nat
  deriving DecidableEq, Repr

/-- syscall_frame_t. -/
structure SyscallFrame where
  gp : GpRegs
  rip : Nat
  cs : Nat
  rflags : Nat
  rsp : Nat
  ss : Nat
  deriving DecidableEq, Repr

/-- stack_t of sigaltstack. -/
structure StackT where
  ssSp : Nat
  ssFlags : Nat
  ssSize : Nat
  deriving DecidableEq, Repr

/-- The fields of sigaction_t signal_setup_frame reads. -/
structure SigAction where
  saHandler : Nat
  saFlags : Nat
  saRestorer : Nat
  deriving DecidableEq, Repr

/-- signal_user_frame_t; fpstate holds the bytes fpu_signal_save wrote, the
rest of the array is zero. -/
structure SigFrame where
  pretcode : Nat
  info : SigInfo
  oldMask : UInt64
  gp : GpRegs
  rip : Nat
  rflags : Nat
  rsp : Nat
  cs : Nat
  ss : Nat
  fpstateMagic : Nat
  fpstateSize : Nat
  fpstate : List UInt8
  deriving DecidableEq, Repr

/-- copy_to_user of a frame at an address. -/
def storeFrame (mem : Nat → Option SigFrame) (addr : Nat) (sigFrame : SigFrame) : Nat → Option SigFrame :=
  fun a => if a = addr then some sigFrame else mem a

/-! ## The FPU state -/

/-- fpu_signal_save(task, state, capacity): the task's first fpuSize bytes,
-1 when they do not fit. -/
def fpuSignalSave (fpuSize : Nat) (live : List UInt8) (capacity : Nat) : Option (List UInt8) :=
  if capacity < fpuSize ∨ fpuSize > fpuSignalStateMax then none else some (live.take fpuSize)

/-- fpu_signal_restore(task, state, size) succeeds. -/
def fpuSignalRestore (fpuSize size : Nat) : Bool := size == fpuSize && decide (size ≤ fpuSignalStateMax)

/-! ## signal_setup_frame -/

/-- alt_valid: enabled, non-empty, and alt_base + ss_size fits in 64 bits. -/
def altstackValid (alt : StackT) : Bool :=
  alt.ssFlags &&& ssDisable == 0 && alt.ssSize != 0 && decide (alt.ssSp ≤ uint64Max - alt.ssSize)

/-- alt_top, 0 for an invalid alternate stack. -/
def altstackTop (alt : StackT) : Nat := if altstackValid alt then alt.ssSp + alt.ssSize else 0

/-- The interrupted rsp is on the alternate stack already. -/
def onAltstack (frame : SyscallFrame) (alt : StackT) : Bool :=
  altstackValid alt && decide (alt.ssSp < frame.rsp) && decide (frame.rsp ≤ altstackTop alt)

/-- The handler asks for the alternate stack and the frame moves to it. -/
def useAltstack (frame : SyscallFrame) (sa : SigAction) (alt : StackT) : Bool :=
  sa.saFlags &&& saOnstack != 0 && altstackValid alt && !onAltstack frame alt

/-- The address signal_setup_frame writes the frame at, which is the
handler's entry rsp. -/
def signalFrameAddr (frame : SyscallFrame) (sa : SigAction) (alt : StackT) : Except Int Nat :=
  let sp := if useAltstack frame sa alt then altstackTop alt else frame.rsp
  let onAlt := onAltstack frame alt || useAltstack frame sa alt
  if sp = 0 ∨ sp ≥ processUserStackTop ∨ sp < 128 then .error (-efault)
  else
    -- below the red zone, & ~0xF
    let sp := (sp - 128) / 16 * 16
    if sp < signalUserFrameSize then .error (-efault)
    else
      let sp := (sp - signalUserFrameSize) / 16 * 16
      if sp < 8 then .error (-efault)
      else
        -- the slot a call would have pushed the return address to
        let sp := sp - 8
        if onAlt = true ∧ (sp < alt.ssSp ∨ sp > altstackTop alt ∨ signalUserFrameSize > altstackTop alt - sp) then
          .error (-efault)
        else .ok sp

/-- The frame signal_setup_frame builds: the restorer as return address,
the siginfo, the old mask, the interrupted registers and the FPU state. -/
def signalUserFrame (frame : SyscallFrame) (sa : SigAction) (info : SigInfo) (oldMask : UInt64) (fpuSize : Nat)
    (fpuLive : List UInt8) : Option SigFrame :=
  let restorer := if sa.saFlags &&& saRestorer ≠ 0 ∧ sa.saRestorer ≠ 0 then sa.saRestorer else 0
  let saved : SigFrame :=
    { pretcode := restorer, info := info, oldMask := oldMask, gp := frame.gp, rip := frame.rip,
      rflags := frame.rflags, rsp := frame.rsp, cs := frame.cs, ss := frame.ss,
      fpstateMagic := 0, fpstateSize := 0, fpstate := [] }
  if fpuSize = 0 then some saved
  else if fpuSize > fpuSignalStateMax then none
  else
    match fpuSignalSave fpuSize fpuLive fpuSignalStateMax with
    | none => none
    | some state => some { saved with fpstateMagic := signalFpstateMagic, fpstateSize := fpuSize, fpstate := state }

/-- signal_setup_frame(frame, sig, sa, info, old_mask) with the task's
alternate stack and FPU state: the frame the handler is entered with, the
address of the signal frame and the frame written there. -/
def signalSetupFrame (frame : SyscallFrame) (sig : Nat) (sa : SigAction) (info : SigInfo) (oldMask : UInt64)
    (alt : StackT) (fpuSize : Nat) (fpuLive : List UInt8) : Except Int (SyscallFrame × Nat × SigFrame) :=
  match signalFrameAddr frame sa alt with
  | .error code => .error code
  | .ok sp =>
    match signalUserFrame frame sa info oldMask fpuSize fpuLive with
    | none => .error (-efault)
    | some sigFrame =>
      let siginfo := sa.saFlags &&& saSiginfo ≠ 0
      let gp := { frame.gp with
        rdi := sig
        rsi := if siginfo then sp + offsetInfo else 0
        rdx := if siginfo then sp + offsetOldMask else 0 }
      .ok ({ frame with gp := gp, rsp := sp, rip := sa.saHandler }, sp, sigFrame)

/-! ## do_rt_sigreturn -/

/-- The rflags do_rt_sigreturn installs: the user bits of the saved value,
with bit 1 and IF set. -/
def sigreturnRflags (rflags : Nat) : Nat := (rflags &&& userRflags) ||| 1 <<< 1 ||| 1 <<< 9

/-- do_rt_sigreturn(frame) with the user memory and the FPU state size: the
restored frame and the thread's new blocked mask. -/
def doRtSigreturn (frame : SyscallFrame) (mem : Nat → Option SigFrame) (fpuSize : Nat) :
    Except Int (SyscallFrame × UInt64) :=
  if frame.rsp < 8 then .error (-efault)
  else
    match mem (frame.rsp - 8) with
    | none => .error (-efault)
    | some sf =>
      if sf.cs ≠ 0x33 ∨ sf.ss ≠ 0x2b ∨ sf.rip = 0 ∨ sf.rip ≥ processUserStackTop ∨ sf.rsp = 0 ∨
          sf.rsp ≥ processUserStackTop then .error (-einval)
      else if fpuSize ≠ 0 ∧ (sf.fpstateMagic ≠ signalFpstateMagic ∨ sf.fpstateSize ≠ fpuSize ∨
          fpuSignalRestore fpuSize sf.fpstateSize = false) then .error (-einval)
      else
        .ok ({ gp := sf.gp, rip := sf.rip, rflags := sigreturnRflags sf.rflags, rsp := sf.rsp, cs := 0x33, ss := 0x2b },
          sigdelset (sigdelset sf.oldMask sigKill) sigStop)

/-! ## Where the frame goes -/

/-- The frame address is 8 modulo 16, the frame ends 8 bytes below the red
zone of the stack it is on, and on the alternate stack it lies inside it. -/
theorem signalFrameAddr_spec {frame : SyscallFrame} {sa : SigAction} {alt : StackT} {sp : Nat}
    (h : signalFrameAddr frame sa alt = .ok sp) :
    sp % 16 = 8 ∧
      sp + signalUserFrameSize + 8 ≤ (if useAltstack frame sa alt then altstackTop alt else frame.rsp) - 128 ∧
      ((onAltstack frame alt || useAltstack frame sa alt) = true →
        alt.ssSp ≤ sp ∧ sp + signalUserFrameSize ≤ altstackTop alt) := by
  unfold signalFrameAddr at h
  generalize (if useAltstack frame sa alt then altstackTop alt else frame.rsp) = base at h ⊢
  generalize (onAltstack frame alt || useAltstack frame sa alt) = onAlt at h ⊢
  dsimp only at h
  -- every failed check returns an error; the one .ok is after all four
  split at h
  · cases h
  split at h
  · cases h
  split at h
  · cases h
  next hbase hfits h8 =>
  split at h
  · cases h
  next halt =>
  obtain rfl := Except.ok.inj h
  have hS : signalUserFrameSize = 4416 := rfl
  refine ⟨by omega, by omega, fun hon => ?_⟩
  simp only [hon, true_and, not_or, Nat.not_lt] at halt
  omega

/-- The frame saves the interrupted registers and the old mask, and an FPU
state of the size fpu_signal_state_size gives, under its magic. -/
theorem signalUserFrame_saves {frame : SyscallFrame} {sa : SigAction} {info : SigInfo} {oldMask : UInt64}
    {fpuSize : Nat} {fpuLive : List UInt8} {sigFrame : SigFrame}
    (h : signalUserFrame frame sa info oldMask fpuSize fpuLive = some sigFrame) :
    sigFrame.gp = frame.gp ∧ sigFrame.rip = frame.rip ∧ sigFrame.rflags = frame.rflags ∧ sigFrame.rsp = frame.rsp ∧
      sigFrame.cs = frame.cs ∧ sigFrame.ss = frame.ss ∧ sigFrame.oldMask = oldMask ∧
      (fpuSize ≠ 0 → sigFrame.fpstateMagic = signalFpstateMagic ∧ sigFrame.fpstateSize = fpuSize ∧
        fpuSize ≤ fpuSignalStateMax) := by
  unfold signalUserFrame at h
  dsimp only at h
  split at h
  · next hzero =>
    obtain rfl := Option.some.inj h
    exact ⟨rfl, rfl, rfl, rfl, rfl, rfl, rfl, fun hne => absurd hzero hne⟩
  split at h
  · cases h
  next hmax =>
  split at h
  · cases h
  next state _ =>
  obtain rfl := Option.some.inj h
  exact ⟨rfl, rfl, rfl, rfl, rfl, rfl, rfl, fun _ => ⟨rfl, rfl, Nat.le_of_not_lt hmax⟩⟩

/-- A successful signal_setup_frame: the address passed the checks, the
frame was built, and the handler starts at that address. -/
theorem signalSetupFrame_ok {frame entry : SyscallFrame} {sig : Nat} {sa : SigAction} {info : SigInfo}
    {oldMask : UInt64} {alt : StackT} {fpuSize : Nat} {fpuLive : List UInt8} {addr : Nat} {sigFrame : SigFrame}
    (h : signalSetupFrame frame sig sa info oldMask alt fpuSize fpuLive = .ok (entry, addr, sigFrame)) :
    signalFrameAddr frame sa alt = .ok addr ∧ signalUserFrame frame sa info oldMask fpuSize fpuLive = some sigFrame ∧
      entry.rsp = addr ∧ entry.rip = sa.saHandler ∧ entry.gp.rdi = sig := by
  unfold signalSetupFrame at h
  split at h
  · cases h
  next sp haddr =>
  split at h
  · cases h
  next built hbuilt =>
  simp only [Except.ok.injEq, Prod.mk.injEq] at h
  obtain ⟨rfl, rfl, rfl⟩ := h
  exact ⟨haddr, hbuilt, rfl, rfl, rfl⟩

/-! ## do_rt_sigreturn -/

/-- do_rt_sigreturn on a frame it accepts: the saved registers and mask come
back, with the rflags masked and the selectors set. -/
theorem doRtSigreturn_of_valid {frame : SyscallFrame} {mem : Nat → Option SigFrame} {fpuSize : Nat} {sf : SigFrame}
    (h8 : 8 ≤ frame.rsp) (hmem : mem (frame.rsp - 8) = some sf) (hcs : sf.cs = 0x33) (hss : sf.ss = 0x2b)
    (hrip : 0 < sf.rip ∧ sf.rip < processUserStackTop) (hrsp : 0 < sf.rsp ∧ sf.rsp < processUserStackTop)
    (hfpu : fpuSize ≠ 0 → sf.fpstateMagic = signalFpstateMagic ∧ sf.fpstateSize = fpuSize ∧
      fpuSize ≤ fpuSignalStateMax) :
    doRtSigreturn frame mem fpuSize =
      .ok ({ gp := sf.gp, rip := sf.rip, rflags := sigreturnRflags sf.rflags, rsp := sf.rsp, cs := 0x33, ss := 0x2b },
        sigdelset (sigdelset sf.oldMask sigKill) sigStop) := by
  unfold doRtSigreturn
  rw [if_neg (Nat.not_lt.mpr h8), hmem]
  dsimp only
  rw [if_neg (by omega)]
  by_cases hzero : fpuSize = 0
  · rw [if_neg (fun h => h.1 hzero)]
  · obtain ⟨hmagic, hsize, hmax⟩ := hfpu hzero
    rw [if_neg]
    simp [hmagic, hsize, fpuSignalRestore, hmax]

/-! ## The round trip -/

/-- A frame that signal_setup_frame writes and the handler leaves alone
brings back, through the restorer and do_rt_sigreturn, the interrupted
registers, rip, rsp, the user rflags bits and the old mask without SIGKILL
and SIGSTOP; the frame is below the red zone or inside the alternate stack
in use, and the handler starts with rsp = 8 modulo 16. -/
theorem signal_frame_round_trip {frame entry : SyscallFrame} {sig : Nat} {sa : SigAction} {info : SigInfo}
    {oldMask : UInt64} {alt : StackT} {fpuSize : Nat} {fpuLive : List UInt8} {addr : Nat} {sigFrame : SigFrame}
    (hcs : frame.cs = 0x33) (hss : frame.ss = 0x2b) (hrip : 0 < frame.rip ∧ frame.rip < processUserStackTop)
    (hrsp : 0 < frame.rsp ∧ frame.rsp < processUserStackTop)
    (hsetup : signalSetupFrame frame sig sa info oldMask alt fpuSize fpuLive = .ok (entry, addr, sigFrame))
    (ret : SyscallFrame) (hret : ret.rsp = entry.rsp + 8) (mem : Nat → Option SigFrame)
    (hmem : mem addr = some sigFrame) :
    entry.rsp = addr ∧ entry.rsp % 16 = 8 ∧
      (useAltstack frame sa alt = false → addr + signalUserFrameSize ≤ frame.rsp - 128) ∧
      ((onAltstack frame alt || useAltstack frame sa alt) = true →
        alt.ssSp ≤ addr ∧ addr + signalUserFrameSize ≤ alt.ssSp + alt.ssSize) ∧
      doRtSigreturn ret mem fpuSize =
        .ok ({ gp := frame.gp, rip := frame.rip, rflags := sigreturnRflags frame.rflags, rsp := frame.rsp,
               cs := 0x33, ss := 0x2b }, sigdelset (sigdelset oldMask sigKill) sigStop) := by
  obtain ⟨haddr, hbuilt, hentry, -, -⟩ := signalSetupFrame_ok hsetup
  obtain ⟨hmod, hbelow, hinside⟩ := signalFrameAddr_spec haddr
  obtain ⟨hgp, hrip', hrflags, hrsp', hcs', hss', hmask, hfpu⟩ := signalUserFrame_saves hbuilt
  refine ⟨hentry, by rw [hentry]; exact hmod, fun huse => ?_, fun hon => ?_, ?_⟩
  · rw [huse] at hbelow
    exact Nat.le_trans (Nat.le_add_right _ 8) hbelow
  · -- onAlt implies a valid alternate stack, whose top is ss_sp + ss_size
    obtain ⟨hlo, hhi⟩ := hinside hon
    have hvalid : altstackValid alt = true := by
      unfold onAltstack useAltstack at hon
      cases hv : altstackValid alt <;> simp_all
    rw [altstackTop, if_pos hvalid] at hhi
    exact ⟨hlo, hhi⟩
  · -- the restorer's sigreturn reads the frame 8 below its rsp: the address written
    have hread : mem (ret.rsp - 8) = some sigFrame := by
      rw [hret, hentry, Nat.add_sub_cancel]
      exact hmem
    rw [doRtSigreturn_of_valid (by omega) hread (by rw [hcs', hcs]) (by rw [hss', hss]) (by rw [hrip']; exact hrip)
      (by rw [hrsp']; exact hrsp) hfpu, hgp, hrip', hrflags, hrsp', hmask]

/-- A thread interrupted at 0x401000 with its stack at 0x7fff0000. -/
def interruptedFrame : SyscallFrame :=
  { gp := ⟨1, 2, 3, 4, 5, 6, 7, 8, 9, 10, 11, 12, 13, 14, 15⟩, rip := 0x401000, cs := 0x33, rflags := 0x246,
    rsp := 0x7fff0000, ss := 0x2b }

/-- An SA_SIGINFO handler at 0x401100 with its restorer at 0x401200. -/
def siginfoAction : SigAction := { saHandler := 0x401100, saFlags := saSiginfo ||| saRestorer, saRestorer := 0x401200 }

/-- The frame signal 10 gets on that stack: 0x7fff0000 - 128 - 4416 - 8. -/
def savedFrame : SigFrame :=
  { pretcode := 0x401200, info := ⟨10, 0, 1, 0, 0⟩, oldMask := 0, gp := interruptedFrame.gp, rip := 0x401000,
    rflags := 0x246, rsp := 0x7fff0000, cs := 0x33, ss := 0x2b, fpstateMagic := 0, fpstateSize := 0, fpstate := [] }

def handlerEntry : SyscallFrame :=
  { interruptedFrame with
    gp := { interruptedFrame.gp with rdi := 10, rsi := 0x7ffeee38 + 8, rdx := 0x7ffeee38 + 144 }
    rsp := 0x7ffeee38
    rip := 0x401100 }

/-- Signal 10 delivered on the thread's stack without FPU state and returned
from through the restorer. -/
theorem signal_frame_round_trip_on_thread_stack :
    signalSetupFrame interruptedFrame 10 siginfoAction ⟨10, 0, 1, 0, 0⟩ 0 ⟨0, ssDisable, 0⟩ 0 [] =
        .ok (handlerEntry, 0x7ffeee38, savedFrame) ∧
      handlerEntry.rsp = 0x7ffeee38 ∧ handlerEntry.rsp % 16 = 8 ∧
      (useAltstack interruptedFrame siginfoAction ⟨0, ssDisable, 0⟩ = false →
        0x7ffeee38 + signalUserFrameSize ≤ interruptedFrame.rsp - 128) ∧
      ((onAltstack interruptedFrame ⟨0, ssDisable, 0⟩ || useAltstack interruptedFrame siginfoAction ⟨0, ssDisable, 0⟩)
          = true → 0 ≤ 0x7ffeee38 ∧ 0x7ffeee38 + signalUserFrameSize ≤ 0 + 0) ∧
      doRtSigreturn { handlerEntry with rsp := 0x7ffeee38 + 8 } (storeFrame (fun _ => none) 0x7ffeee38 savedFrame) 0 =
        .ok ({ gp := interruptedFrame.gp, rip := 0x401000, rflags := sigreturnRflags 0x246, rsp := 0x7fff0000,
               cs := 0x33, ss := 0x2b }, sigdelset (sigdelset 0 sigKill) sigStop) := by
  have hsetup : signalSetupFrame interruptedFrame 10 siginfoAction ⟨10, 0, 1, 0, 0⟩ 0 ⟨0, ssDisable, 0⟩ 0 [] =
      .ok (handlerEntry, 0x7ffeee38, savedFrame) := by decide
  exact ⟨hsetup, signal_frame_round_trip rfl rfl (by decide) (by decide) hsetup _ rfl _ (by simp [storeFrame])⟩

end Uinxed.Signal
