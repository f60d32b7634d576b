/-
  Security/SeccompBpfSafety.lean --- what seccomp_bpf_validate guarantees
  about seccomp_bpf_run.

  The first loop of the validator checks each instruction against the masks
  of its class, and the interpreter dispatches on the same class tests in the
  same order, so every branch the interpreter can take on an accepted
  instruction is one of the branches the validator allowed: no default
  branch, no modulo, no jump outside the program, a BPF_RET at the end, and
  constant divisors that are not zero.  Jumps only go forward, so the pcs of
  a run increase and the loop ends within length iterations, at a BPF_RET or
  at a division by a zero X.

  The data-flow pass is ForwardPass.run, and its soundness gives, for every
  index a run reaches, a memory mask below what flows out of the index
  before it.  Following a run, the mask at its pc only names scratch words
  the run has already stored to; since each accepted scratch load found its
  bit in the mask, every load reads a word stored earlier on the same run.
-/
import Uinxed.Security.SeccompBpf
import Mathlib.Data.List.GetD

set_option autoImplicit false

namespace Uinxed.Seccomp

/-! ## What the validator establishes -/

/-- The facts an accepted program comes with: a non-empty program, each
instruction accepted by its class check, a BPF_RET at the end, and the
result F of the data-flow pass. -/
structure Validated (prog : List SockFilter) (F : ForwardPass.Facts UInt16) : Prop where
  length_pos : 0 < prog.length
  insn : ∀ i < prog.length, seccompBpfValidInsn (insnAt prog i) i prog.length = true
  last_ret : bpfClass (insnAt prog (prog.length - 1)).code = bpfRet
  dataflow : seccompBpfDataflow prog = some F

theorem insnAt_eq_getElem {prog : List SockFilter} {i : Nat} (h : i < prog.length) :
    insnAt prog i = prog[i] :=
  List.getD_eq_getElem _ _ h

theorem getElem?_eq_insnAt {prog : List SockFilter} {i : Nat} (h : i < prog.length) :
    prog[i]? = some (insnAt prog i) := by
  rw [insnAt_eq_getElem h, List.getElem?_eq_getElem h]

/-- The first loop of the validator checks each instruction at its index. -/
theorem validInsn_of_all {prog : List SockFilter}
    (hall : (prog.zipIdx.all fun p => seccompBpfValidInsn p.1 p.2 prog.length) = true) :
    ∀ i < prog.length, seccompBpfValidInsn (insnAt prog i) i prog.length = true := by
  intro i hi
  -- the first loop checked the pair (prog[i], i) of zipIdx
  have hmem : (insnAt prog i, i) ∈ prog.zipIdx := by
    rw [List.mem_zipIdx_iff_getElem?]
    exact getElem?_eq_insnAt hi
  exact (List.all_eq_true.mp hall) _ hmem

theorem validated_of_validate {prog : List SockFilter} (h : seccompBpfValidate prog = eok) :
    ∃ F, Validated prog F := by
  unfold seccompBpfValidate at h
  dsimp only at h
  split_ifs at h with h0 hall hlast
  · exact absurd h (by decide)
  · exact absurd h (by decide)
  · exact absurd h (by decide)
  · cases hF : seccompBpfDataflow prog with
    | none => rw [hF] at h; exact absurd h (by decide)
    | some F =>
      have hpos : 0 < prog.length := by omega
      simp only [Bool.not_eq_eq_eq_not, Bool.not_true, Bool.not_eq_false] at hall
      exact ⟨F, hpos, validInsn_of_all hall, by simpa using hlast, hF⟩

/-! ## Memory masks -/

/-- The order of memory masks: a is below b when every bit of a is in b. -/
def maskLe (a b : UInt16) : Prop := a &&& b = a

theorem maskLe_refl (a : UInt16) : maskLe a a := UInt16.and_self

theorem maskLe_trans (a b c : UInt16) (hab : maskLe a b) (hbc : maskLe b c) : maskLe a c := by
  unfold maskLe at *
  calc a &&& c = (a &&& b) &&& c := by rw [hab]
    _ = a &&& (b &&& c) := UInt16.and_assoc _ _ _
    _ = a := by rw [hbc, hab]

theorem maskLe_and_left (a b : UInt16) : maskLe (a &&& b) a := by
  unfold maskLe
  rw [UInt16.and_comm (a &&& b) a, ← UInt16.and_assoc, UInt16.and_self]

theorem maskLe_and_right (a b : UInt16) : maskLe (a &&& b) b := by
  unfold maskLe
  rw [UInt16.and_assoc, UInt16.and_self]

theorem memoryBit_toNat {k : UInt32} (hk : k < bpfMemwords) : (memoryBit k).toNat = 2 ^ k.toNat := by
  have hk' : k.toNat < 16 := hk
  rw [memoryBit, UInt32.toNat_toUInt16, UInt32.toNat_shiftLeft, Nat.mod_eq_of_lt (by omega : k.toNat < 32)]
  have hpow : 2 ^ k.toNat < 2 ^ 16 := Nat.pow_lt_pow_right (by decide) hk'
  simp only [UInt32.toNat_one, Nat.one_shiftLeft]
  rw [Nat.mod_eq_of_lt (lt_trans hpow (by decide)), Nat.mod_eq_of_lt hpow]

/-- The scratch words whose bits are set in a mask are all in W. -/
def MaskCovered (mask : UInt16) (W : List Nat) : Prop :=
  ∀ b, mask.toNat.testBit b = true → b ∈ W

theorem maskCovered_zero (W : List Nat) : MaskCovered 0 W := by
  intro b hb
  simp at hb

theorem MaskCovered.of_le {a b : UInt16} {W : List Nat} (h : MaskCovered b W) (hab : maskLe a b) :
    MaskCovered a W := by
  intro i hi
  apply h i
  rw [← hab, UInt16.toNat_and, Nat.testBit_and] at hi
  exact (Bool.and_eq_true_iff.mp hi).2

theorem MaskCovered.mono {m : UInt16} {W W' : List Nat} (h : MaskCovered m W) (hW : W ⊆ W') :
    MaskCovered m W' :=
  fun b hb => hW (h b hb)

theorem MaskCovered.or_bit {m : UInt16} {W : List Nat} (h : MaskCovered m W) {k : UInt32}
    (hk : k < bpfMemwords) : MaskCovered (m ||| memoryBit k) (k.toNat :: W) := by
  intro i hi
  rw [UInt16.toNat_or, Nat.testBit_or, memoryBit_toNat hk, Nat.testBit_two_pow] at hi
  rcases Bool.or_eq_true_iff.mp hi with hm | hk'
  · exact List.mem_cons_of_mem _ (h i hm)
  · rw [decide_eq_true_iff] at hk'
    rw [hk']
    exact List.mem_cons_self

/-- A mask that passed the check for word k has k's bit. -/
theorem testBit_of_and_memoryBit {m : UInt16} {k : UInt32} (hk : k < bpfMemwords)
    (h : m &&& memoryBit k ≠ 0) : m.toNat.testBit k.toNat = true := by
  by_contra hb
  apply h
  rw [← UInt16.toNat_inj, UInt16.toNat_and, memoryBit_toNat hk, UInt16.toNat_zero]
  apply Nat.eq_of_testBit_eq
  intro i
  rw [Nat.testBit_and, Nat.testBit_two_pow, Nat.zero_testBit]
  by_cases hi : k.toNat = i
  · subst hi
    simpa using hb
  · simp [hi]

/-! ## Accepted instructions -/

/-- The instructions the first loop of seccomp_bpf_validate accepts at
index i of a program of length L, one constructor for each form it allows.
The shift-width rule is dropped: the interpreter handles every width. -/
inductive ValidShape (i L : Nat) : SockFilter → Prop
  | ldAbs {jt jf : UInt8} {k : UInt32} (halign : k &&& 3 = 0) (hk : k.toNat ≤ seccompDataSize - 4) :
      ValidShape i L ⟨bpfLd ||| bpfW ||| bpfAbs, jt, jf, k⟩
  | ldLen {jt jf : UInt8} {k : UInt32} : ValidShape i L ⟨bpfLd ||| bpfW ||| bpfLen, jt, jf, k⟩
  | ldImm {jt jf : UInt8} {k : UInt32} : ValidShape i L ⟨bpfLd ||| bpfImm, jt, jf, k⟩
  | ldMem {jt jf : UInt8} {k : UInt32} (hk : k < bpfMemwords) : ValidShape i L ⟨bpfLd ||| bpfMem, jt, jf, k⟩
  | ldxLen {jt jf : UInt8} {k : UInt32} : ValidShape i L ⟨bpfLdx ||| bpfW ||| bpfLen, jt, jf, k⟩
  | ldxImm {jt jf : UInt8} {k : UInt32} : ValidShape i L ⟨bpfLdx ||| bpfImm, jt, jf, k⟩
  | ldxMem {jt jf : UInt8} {k : UInt32} (hk : k < bpfMemwords) : ValidShape i L ⟨bpfLdx ||| bpfMem, jt, jf, k⟩
  | st {jt jf : UInt8} {k : UInt32} (hk : k < bpfMemwords) : ValidShape i L ⟨bpfSt, jt, jf, k⟩
  | stx {jt jf : UInt8} {k : UInt32} (hk : k < bpfMemwords) : ValidShape i L ⟨bpfStx, jt, jf, k⟩
  | aluNeg {jt jf : UInt8} {k : UInt32} : ValidShape i L ⟨bpfAlu ||| bpfNeg, jt, jf, k⟩
  | aluBin {code : UInt16} {jt jf : UInt8} {k : UInt32} (hcls : bpfClass code = bpfAlu)
      (hop : bpfOp code ∈ aluBinaryOps) : ValidShape i L ⟨code, jt, jf, k⟩
  | aluDiv {code : UInt16} {jt jf : UInt8} {k : UInt32} (hcls : bpfClass code = bpfAlu)
      (hop : bpfOp code = bpfDiv) (hk : bpfSrc code = bpfX ∨ k ≠ 0) : ValidShape i L ⟨code, jt, jf, k⟩
  | ja {jt jf : UInt8} {k : UInt32} (hk : k.toNat < L - i - 1) : ValidShape i L ⟨bpfJmp ||| bpfJa, jt, jf, k⟩
  | jcond {code : UInt16} {jt jf : UInt8} {k : UInt32} (hcls : bpfClass code = bpfJmp)
      (hja : code ≠ bpfJmp ||| bpfJa)
      (hop : bpfOp code = bpfJeq ∨ bpfOp code = bpfJgt ∨ bpfOp code = bpfJge ∨ bpfOp code = bpfJset)
      (hjt : jt.toNat < L - i - 1) (hjf : jf.toNat < L - i - 1) : ValidShape i L ⟨code, jt, jf, k⟩
  | retK {jt jf : UInt8} {k : UInt32} : ValidShape i L ⟨bpfRet ||| bpfK, jt, jf, k⟩
  | retA {jt jf : UInt8} {k : UInt32} : ValidShape i L ⟨bpfRet ||| bpfA, jt, jf, k⟩
  | tax {jt jf : UInt8} {k : UInt32} : ValidShape i L ⟨bpfMisc ||| bpfTax, jt, jf, k⟩
  | txa {jt jf : UInt8} {k : UInt32} : ValidShape i L ⟨bpfMisc ||| bpfTxa, jt, jf, k⟩

theorem validShape_of_validAlu {code : UInt16} {jt jf : UInt8} {k : UInt32} {i L : Nat}
    (hcls : bpfClass code = bpfAlu) (h : seccompBpfValidAlu code k = true) :
    ValidShape i L ⟨code, jt, jf, k⟩ := by
  unfold seccompBpfValidAlu at h
  dsimp only at h
  split_ifs at h with hneg hsrc hbin hdiv
  · subst hneg; exact .aluNeg
  · exact .aluBin hcls hbin
  · simp only [Bool.or_eq_true, decide_eq_true_eq] at h
    exact .aluDiv hcls hdiv (h.imp id (by simpa using ·))

theorem validShape_of_validJump {code : UInt16} {jt jf : UInt8} {k : UInt32} {i L : Nat}
    (hcls : bpfClass code = bpfJmp) (h : seccompBpfValidJump ⟨code, jt, jf, k⟩ i L = true) :
    ValidShape i L ⟨code, jt, jf, k⟩ := by
  unfold seccompBpfValidJump at h
  dsimp only at h
  split_ifs at h with hja hsrc hop
  · subst hja; exact .ja (by simpa using h)
  · simp only [Bool.and_eq_true, decide_eq_true_eq] at h
    refine .jcond hcls hja ?_ h.1 h.2
    by_contra hn
    exact hop (by simpa [not_or] using hn)

theorem validShape_of_valid {ins : SockFilter} {i L : Nat} (h : seccompBpfValidInsn ins i L = true) :
    ValidShape i L ins := by
  obtain ⟨code, jt, jf, k⟩ := ins
  unfold seccompBpfValidInsn at h
  dsimp only at h
  split_ifs at h with hld hldx hst halu hjmp hret hmisc
  · simp only [seccompBpfValidLoad, Bool.or_eq_true, Bool.and_eq_true, decide_eq_true_eq] at h
    rcases h with (((⟨⟨rfl, halign⟩, hk⟩ | rfl) | rfl) | ⟨rfl, hk⟩)
    · exact .ldAbs halign hk
    · exact .ldLen
    · exact .ldImm
    · exact .ldMem hk
  · simp only [Bool.or_eq_true, Bool.and_eq_true, decide_eq_true_eq] at h
    rcases h with ((rfl | rfl) | ⟨rfl, hk⟩)
    · exact .ldxLen
    · exact .ldxImm
    · exact .ldxMem hk
  · simp only [Bool.not_eq_eq_eq_not, Bool.not_true, Bool.or_eq_false_iff, decide_eq_false_iff_not,
      not_not, ge_iff_le, UInt32.not_le] at h
    obtain ⟨hcode, hk⟩ := h
    rcases hst with hst | hst
    · rw [hst] at hcode; subst hcode; exact .st hk
    · rw [hst] at hcode; subst hcode; exact .stx hk
  · exact validShape_of_validAlu halu h
  · exact validShape_of_validJump hjmp h
  · simp only [Bool.or_eq_true, decide_eq_true_eq] at h
    rcases h with rfl | rfl
    · exact .retK
    · exact .retA
  · simp only [Bool.or_eq_true, decide_eq_true_eq] at h
    rcases h with rfl | rfl
    · exact .tax
    · exact .txa


/-! ## One iteration on an accepted instruction -/

theorem bpfSuccessors_of_not_jump (ins : SockFilter) (i : Nat) (hret : bpfClass ins.code ≠ bpfRet)
    (hjmp : bpfClass ins.code ≠ bpfJmp) : bpfSuccessors ins i = [i + 1] := by
  have hja : ins.code ≠ bpfJmp ||| bpfJa := fun e => hjmp (by rw [e]; decide)
  simp only [bpfSuccessors, if_neg hret, if_neg hja, if_neg hjmp]

theorem bpfSuccessors_jcond (ins : SockFilter) (i : Nat) (hcls : bpfClass ins.code = bpfJmp)
    (hja : ins.code ≠ bpfJmp ||| bpfJa) :
    bpfSuccessors ins i = [i + 1 + ins.jt.toNat, i + 1 + ins.jf.toNat] := by
  have hret : bpfClass ins.code ≠ bpfRet := by rw [hcls]; decide
  simp only [bpfSuccessors, if_neg hret, if_neg hja, if_pos hcls]

/-- The BPF_ALU case of the interpreter. -/
theorem seccompBpfExec_alu {ins : SockFilter} (data : Nat → UInt8) (pc : Nat) (m : BpfMachine)
    (hcls : bpfClass ins.code = bpfAlu) :
    seccompBpfExec ins data pc m =
      (seccompBpfAlu (bpfOp ins.code) m.accumulator (if bpfSrc ins.code = bpfX then m.index else ins.k)).elim
        (fun a => .next (pc + 1) { m with accumulator := a }) .exit := by
  simp +decide only [seccompBpfExec, hcls, ↓reduceIte]
  cases seccompBpfAlu (bpfOp ins.code) m.accumulator (if bpfSrc ins.code = bpfX then m.index else ins.k) <;> rfl

/-- The conditional-jump case of the interpreter. -/
theorem seccompBpfExec_jcond {ins : SockFilter} (data : Nat → UInt8) (pc : Nat) (m : BpfMachine)
    (hcls : bpfClass ins.code = bpfJmp) (hja : ins.code ≠ bpfJmp ||| bpfJa) :
    seccompBpfExec ins data pc m =
      (seccompBpfJumpTaken (bpfOp ins.code) m.accumulator (if bpfSrc ins.code = bpfX then m.index else ins.k)).elim
        (.exit .unknownOp) (fun taken => .next (pc + (if taken then ins.jt else ins.jf).toNat + 1) m) := by
  simp +decide only [seccompBpfExec, hcls, if_neg hja, ↓reduceIte]
  cases seccompBpfJumpTaken (bpfOp ins.code) m.accumulator (if bpfSrc ins.code = bpfX then m.index else ins.k) <;> rfl

theorem seccompBpfAlu_of_mem {op : UInt16} (hop : op ∈ aluBinaryOps) (a b : UInt32) :
    ∃ r, seccompBpfAlu op a b = .inl r := by
  simp only [aluBinaryOps, List.mem_cons, List.not_mem_nil, or_false] at hop
  rcases hop with rfl | rfl | rfl | rfl | rfl | rfl | rfl | rfl <;> simp [seccompBpfAlu]

theorem seccompBpfAlu_div (a b : UInt32) :
    seccompBpfAlu bpfDiv a b = if b = 0 then .inr .divByZero else .inl (a / b) := by
  simp [seccompBpfAlu]

theorem seccompBpfJumpTaken_of_op {op : UInt16}
    (hop : op = bpfJeq ∨ op = bpfJgt ∨ op = bpfJge ∨ op = bpfJset) (a b : UInt32) :
    ∃ t, seccompBpfJumpTaken op a b = some t := by
  rcases hop with rfl | rfl | rfl | rfl <;> simp [seccompBpfJumpTaken]

/-- How an iteration on an accepted instruction may end the run: with the
value of a BPF_RET, or with SECCOMP_RET_KILL_THREAD from a BPF_DIV whose X
operand is zero. -/
def RetOrDivExit (ins : SockFilter) (m : BpfMachine) (e : BpfExit) : Prop :=
  (bpfClass ins.code = bpfRet ∧ e = .ret (if bpfRval ins.code = bpfA then m.accumulator else ins.k)) ∨
  (bpfClass ins.code = bpfAlu ∧ bpfOp ins.code = bpfDiv ∧ bpfSrc ins.code = bpfX ∧ m.index = 0 ∧
    e = .divByZero)

/-- One iteration on an accepted instruction continues at one of the
instruction's successors or ends the run at a BPF_RET or a division by a zero
X: never at an unknown opcode. -/
theorem RetOrDivExit.ne_unknownOp {ins : SockFilter} {m : BpfMachine} {e : BpfExit}
    (h : RetOrDivExit ins m e) : e ≠ .unknownOp := by
  rcases h with ⟨-, rfl⟩ | ⟨-, -, -, -, rfl⟩ <;> simp

theorem RetOrDivExit.ne_fallOff {ins : SockFilter} {m : BpfMachine} {e : BpfExit}
    (h : RetOrDivExit ins m e) : e ≠ .fallOff := by
  rcases h with ⟨-, rfl⟩ | ⟨-, -, -, -, rfl⟩ <;> simp

theorem seccompBpfExec_of_validShape {ins : SockFilter} {pc L : Nat} (hs : ValidShape pc L ins)
    (data : Nat → UInt8) (m : BpfMachine) :
    (∃ pc' m', seccompBpfExec ins data pc m = .next pc' m' ∧ pc' ∈ bpfSuccessors ins pc) ∨
    (∃ e, seccompBpfExec ins data pc m = .exit e ∧ RetOrDivExit ins m e) := by
  cases hs with
  | @aluBin code jt jf k hcls hop =>
    have hsucc := bpfSuccessors_of_not_jump ⟨code, jt, jf, k⟩ pc (by rw [hcls]; decide) (by rw [hcls]; decide)
    obtain ⟨r, hr⟩ := seccompBpfAlu_of_mem hop m.accumulator (if bpfSrc code = bpfX then m.index else k)
    left
    refine ⟨pc + 1, { m with accumulator := r }, ?_, by simp [hsucc]⟩
    rw [seccompBpfExec_alu data pc m hcls]
    simp only [hr, Sum.elim_inl]
  | @aluDiv code jt jf k hcls hop hk =>
    have hsucc := bpfSuccessors_of_not_jump ⟨code, jt, jf, k⟩ pc (by rw [hcls]; decide) (by rw [hcls]; decide)
    -- the divisor is X when the source bit says so, and the non-zero constant otherwise
    have hexec : seccompBpfExec ⟨code, jt, jf, k⟩ data pc m =
        (if (if bpfSrc code = bpfX then m.index else k) = 0 then .inr .divByZero
          else .inl (m.accumulator / if bpfSrc code = bpfX then m.index else k) : UInt32 ⊕ BpfExit).elim
          (fun a => .next (pc + 1) { m with accumulator := a }) .exit := by
      rw [seccompBpfExec_alu data pc m hcls]
      simp only [hop, seccompBpfAlu_div]
    by_cases hsrc : bpfSrc code = bpfX
    · by_cases h0 : m.index = 0
      · exact .inr ⟨_, by rw [hexec, if_pos hsrc, if_pos h0, Sum.elim_inr], .inr ⟨hcls, hop, hsrc, h0, rfl⟩⟩
      · exact .inl ⟨pc + 1, { m with accumulator := m.accumulator / m.index }, by rw [hexec, if_pos hsrc, if_neg h0, Sum.elim_inl],
          by simp [hsucc]⟩
    · have hk0 : k ≠ 0 := hk.resolve_left hsrc
      exact .inl ⟨pc + 1, { m with accumulator := m.accumulator / k }, by rw [hexec, if_neg hsrc, if_neg hk0, Sum.elim_inl],
        by simp [hsucc]⟩
  | @jcond code jt jf k hcls hja hop hjt hjf =>
    have hsucc := bpfSuccessors_jcond ⟨code, jt, jf, k⟩ pc hcls hja
    obtain ⟨t, ht⟩ := seccompBpfJumpTaken_of_op hop m.accumulator (if bpfSrc code = bpfX then m.index else k)
    left
    refine ⟨pc + (if t then jt else jf).toNat + 1, m, ?_, ?_⟩
    · rw [seccompBpfExec_jcond data pc m hcls hja]
      dsimp only
      rw [ht, Option.elim_some]
    · rw [hsucc]
      cases t <;> simp <;> omega
  | ja hk =>
    left
    simp +decide [seccompBpfExec, bpfSuccessors]
    omega
  | _ => simp +decide [seccompBpfExec, bpfSuccessors, seccompBpfAlu, RetOrDivExit]

/-- The successors of an accepted instruction lie after it and inside the
program; only the last instruction, a BPF_RET, has none to fall through to. -/
theorem ValidShape.successors_lt {ins : SockFilter} {i L : Nat} (hs : ValidShape i L ins) (hi : i < L)
    (hlast : i + 1 = L → bpfClass ins.code = bpfRet) : ∀ j ∈ bpfSuccessors ins i, i < j ∧ j < L := by
  cases hs with
  | @aluBin code jt jf k hcls hop =>
    rw [bpfSuccessors_of_not_jump _ i (by rw [hcls]; decide) (by rw [hcls]; decide)]
    have hne : i + 1 ≠ L := fun e => absurd ((hlast e).symm.trans hcls) (by decide)
    simp only [List.mem_singleton, forall_eq]
    omega
  | @aluDiv code jt jf k hcls hop hk =>
    rw [bpfSuccessors_of_not_jump _ i (by rw [hcls]; decide) (by rw [hcls]; decide)]
    have hne : i + 1 ≠ L := fun e => absurd ((hlast e).symm.trans hcls) (by decide)
    simp only [List.mem_singleton, forall_eq]
    omega
  | @jcond code jt jf k hcls hja hop hjt hjf =>
    rw [bpfSuccessors_jcond _ i hcls hja]
    simp only [List.mem_cons, List.not_mem_nil, or_false, forall_eq_or_imp, forall_eq]
    omega
  | ja hk =>
    simp +decide [bpfSuccessors]
    omega
  | retK | retA => simp +decide [bpfSuccessors]
  | _ =>
    simp +decide [bpfSuccessors] at hlast ⊢
    omega

/-- An accepted instruction reads scratch memory only as BPF_LD or BPF_LDX
with BPF_MEM, at a word below BPF_MEMWORDS. -/
theorem ValidShape.scratchRead_eq {ins : SockFilter} {i L : Nat} (hs : ValidShape i L ins) {w : Nat}
    (h : scratchRead ins = some w) :
    (ins.code = bpfLd ||| bpfMem ∨ ins.code = bpfLdx ||| bpfMem) ∧ ins.k < bpfMemwords ∧ w = ins.k.toNat := by
  cases hs with
  | ldMem hk =>
    simp +decide [scratchRead] at h
    exact ⟨.inl rfl, hk, h.symm⟩
  | ldxMem hk =>
    simp +decide [scratchRead] at h
    exact ⟨.inr rfl, hk, h.symm⟩
  | aluBin hcls _ | aluDiv hcls _ _ | jcond hcls _ _ _ _ => simp +decide [scratchRead, hcls] at h
  | _ => simp +decide [scratchRead] at h

/-- An accepted instruction writes scratch memory only as BPF_ST or BPF_STX,
at a word below BPF_MEMWORDS. -/
theorem ValidShape.scratchWrite_eq {ins : SockFilter} {i L : Nat} (hs : ValidShape i L ins) {w : Nat}
    (h : scratchWrite ins = some w) :
    (ins.code = bpfSt ∨ ins.code = bpfStx) ∧ ins.k < bpfMemwords ∧ w = ins.k.toNat := by
  cases hs with
  | st hk =>
    simp +decide [scratchWrite] at h
    exact ⟨.inl rfl, hk, h.symm⟩
  | stx hk =>
    simp +decide [scratchWrite] at h
    exact ⟨.inr rfl, hk, h.symm⟩
  | aluBin hcls _ | aluDiv hcls _ _ | jcond hcls _ _ _ _ => simp +decide [scratchWrite, hcls] at h
  | _ => simp +decide [scratchWrite] at h

/-- An accepted BPF_ABS load reads its four bytes inside seccomp_data. -/
theorem ValidShape.abs_bound {ins : SockFilter} {i L : Nat} (hs : ValidShape i L ins)
    (h : ins.code = bpfLd ||| bpfW ||| bpfAbs) : ins.k.toNat + 4 ≤ seccompDataSize := by
  cases hs with
  | ldAbs _ hk =>
    have : 4 ≤ seccompDataSize := by decide
    dsimp only
    omega
  | aluBin hcls _ | aluDiv hcls _ _ | jcond hcls _ _ _ _ =>
    dsimp only at h
    rw [h] at hcls
    exact absurd hcls (by decide)
  | _ => simp +decide at h

/-! ## What the data-flow pass establishes -/

theorem memorySuccessors_forward (prog : List SockFilter) : ∀ i, ∀ j ∈ memorySuccessors prog i, i < j := by
  intro i j hj
  unfold memorySuccessors bpfSuccessors at hj
  split_ifs at hj <;> simp at hj <;> omega

/-- Every scratch read along a path reads a word in W or one stored earlier
on the path. -/
def ReadsStored (prog : List SockFilter) : List Nat → List Nat → Prop
  | _, [] => True
  | W, q :: path => (∀ w, scratchRead (insnAt prog q) = some w → w ∈ W) ∧
      ReadsStored prog ((scratchWrite (insnAt prog q)).toList ++ W) path

/-- A read inside the path finds its word in W or in a store before it. -/
theorem ReadsStored.of_append {prog : List SockFilter} :
    ∀ (pre : List Nat) {W : List Nat} {q : Nat} {post : List Nat}, ReadsStored prog W (pre ++ q :: post) →
      ∀ w, scratchRead (insnAt prog q) = some w → w ∈ W ∨ ∃ p ∈ pre, scratchWrite (insnAt prog p) = some w
  | [], _, _, _, h, w, hr => .inl (h.1 w hr)
  | p :: pre, _, _, _, h, w, hr => by
    rcases ReadsStored.of_append pre h.2 w hr with hw | ⟨p', hp', hwp'⟩
    · rcases List.mem_append.mp hw with hw | hw
      · exact .inr ⟨p, List.mem_cons_self, Option.mem_toList.mp hw⟩
      · exact .inl hw
    · exact .inr ⟨p', List.mem_cons_of_mem p hp', hwp'⟩

section Validated

variable {prog : List SockFilter} {F : ForwardPass.Facts UInt16}

theorem Validated.shape (hv : Validated prog F) {i : Nat} (hi : i < prog.length) :
    ValidShape i prog.length (insnAt prog i) :=
  validShape_of_valid (hv.insn i hi)

/-- The successors of an index of an accepted program lie after it and inside
the program. -/
theorem Validated.successor_lt (hv : Validated prog F) {i j : Nat} (hi : i < prog.length)
    (hj : j ∈ memorySuccessors prog i) : i < j ∧ j < prog.length :=
  have hlast : i + 1 = prog.length → bpfClass (insnAt prog i).code = bpfRet := by
    intro e
    have hi' : i = prog.length - 1 := by omega
    rw [hi']
    exact hv.last_ret
  (hv.shape hi).successors_lt hi hlast j hj

theorem Validated.sound (hv : Validated prog F) :
    ForwardPass.Sound (memoryCheck prog) (memoryOut prog) (memorySuccessors prog) maskLe F prog.length :=
  (ForwardPass.run_sound maskLe maskLe_refl maskLe_trans maskLe_and_left maskLe_and_right
    (memorySuccessors_forward prog) hv.dataflow).2

/-- The pass reaches index 0 with the empty mask: no index jumps back to it. -/
theorem Validated.zero (hv : Validated prog F) : F.reached 0 = true ∧ F.val 0 = 0 := by
  have hnot : ∀ i < prog.length, 0 ∉ memorySuccessors prog i :=
    fun i _ h0 => Nat.not_lt_zero i (memorySuccessors_forward prog i 0 h0)
  obtain ⟨hval, hreach⟩ := ForwardPass.run_of_not_succ hv.dataflow hnot
  exact ⟨by rw [hreach]; rfl, hval⟩

/-- A scratch load that passed the data-flow check reads a word its mask
covers. -/
theorem Validated.mem_of_read (hv : Validated prog F) {q : Nat} (hq : q < prog.length)
    (hreach : F.reached q = true) {W : List Nat} (hW : MaskCovered (F.val q) W) {w : Nat}
    (hr : scratchRead (insnAt prog q) = some w) : w ∈ W := by
  obtain ⟨hcode, hk, rfl⟩ := (hv.shape hq).scratchRead_eq hr
  have hcheck := (hv.sound q hq hreach).1
  have hload : (decide ((insnAt prog q).code = bpfLd ||| bpfMem) ||
      decide ((insnAt prog q).code = bpfLdx ||| bpfMem)) = true := by
    rcases hcode with h | h <;> simp [h]
  simp only [memoryCheck, hload, Bool.true_and, Bool.not_eq_eq_eq_not, Bool.not_true,
    decide_eq_false_iff_not] at hcheck
  exact hW _ (testBit_of_and_memoryBit hk hcheck)

/-- The mask flowing out of an index covers the words stored so far and the
one it stores. -/
theorem Validated.covered_out (hv : Validated prog F) {q : Nat} (hq : q < prog.length) {mask : UInt16}
    {W : List Nat} (hW : MaskCovered mask W) :
    MaskCovered (memoryOut prog q mask) ((scratchWrite (insnAt prog q)).toList ++ W) := by
  unfold memoryOut
  dsimp only
  split_ifs with hst
  · have hwrite : scratchWrite (insnAt prog q) = some (insnAt prog q).k.toNat := by
      rcases hst with h | h <;> simp +decide [scratchWrite, h]
    obtain ⟨-, hk, -⟩ := (hv.shape hq).scratchWrite_eq hwrite
    rw [hwrite]
    exact hW.or_bit hk
  · exact hW.mono (List.subset_append_right _ _)

/-- Along a path of successors from a reached index, the masks of the pass
cover what the path stored: every scratch read finds its word. -/
theorem Validated.readsStored (hv : Validated prog F) :
    ∀ (path : List Nat) {q : Nat} {W : List Nat}, q < prog.length → F.reached q = true →
      MaskCovered (F.val q) W → List.IsChain (fun a b => b ∈ memorySuccessors prog a) (q :: path) →
      ReadsStored prog W (q :: path)
  | [], _, _, hq, hreach, hW, _ => ⟨fun _ => hv.mem_of_read hq hreach hW, trivial⟩
  | q' :: path, q, _, hq, hreach, hW, hchain => by
    obtain ⟨hq', hchain'⟩ := List.isChain_cons_cons.mp hchain
    obtain ⟨-, hsucc⟩ := hv.sound q hq hreach
    obtain ⟨hreach', hle⟩ := hsucc q' hq'
    refine ⟨fun _ => hv.mem_of_read hq hreach hW, ?_⟩
    exact hv.readsStored path (hv.successor_lt hq hq').2 hreach' ((hv.covered_out hq hW).of_le hle) hchain'

/-- From a pc inside an accepted program, with fuel for the rest of it, the
loop visits a chain of successors inside the program, each after the one
before, and leaves at a BPF_RET or at a division by a zero X, with the
registers it holds at that last instruction. -/
theorem Validated.loop (hv : Validated prog F) (data : Nat → UInt8) :
    ∀ (fuel pc : Nat) (m : BpfMachine), pc < prog.length → prog.length - pc ≤ fuel →
      ∃ rest, (seccompBpfLoop prog data fuel pc m).1 = pc :: rest ∧
        List.IsChain (fun a b => b ∈ memorySuccessors prog a) (pc :: rest) ∧
        (∀ q ∈ pc :: rest, pc ≤ q ∧ q < prog.length) ∧ rest.length < prog.length - pc ∧
        RetOrDivExit (insnAt prog ((pc :: rest).getLast (List.cons_ne_nil _ _)))
          (seccompBpfLastMachine prog data fuel pc m) (seccompBpfLoop prog data fuel pc m).2
  | 0, _, _, hpc, hfuel => absurd hfuel (by omega)
  | fuel + 1, pc, m, hpc, hfuel => by
    have hfetch := getElem?_eq_insnAt hpc
    rcases seccompBpfExec_of_validShape (hv.shape hpc) data m with ⟨pc', m', hexec, hsucc⟩ | ⟨e, hexec, hexit⟩
    · -- the iteration continues at a successor, further into the program
      obtain ⟨hlt, hpc'⟩ := hv.successor_lt hpc hsucc
      obtain ⟨rest, hrun, hchain, hbound, hlen, hexit⟩ := hv.loop data fuel pc' m' hpc' (by omega)
      have hstep : seccompBpfLoop prog data (fuel + 1) pc m =
          (pc :: (seccompBpfLoop prog data fuel pc' m').1, (seccompBpfLoop prog data fuel pc' m').2) := by
        simp only [seccompBpfLoop, hfetch, hexec]
      have hlast : seccompBpfLastMachine prog data (fuel + 1) pc m = seccompBpfLastMachine prog data fuel pc' m' := by
        simp only [seccompBpfLastMachine, hfetch, hexec]
      refine ⟨pc' :: rest, by rw [hstep, hrun], List.IsChain.cons_cons hsucc hchain, ?_, ?_, ?_⟩
      · intro q hq
        rcases List.mem_cons.mp hq with rfl | hq
        · exact ⟨le_refl q, hpc⟩
        · have := hbound q hq
          omega
      · simp only [List.length_cons]
        omega
      · rw [hstep, hlast, List.getLast_cons_cons]
        exact hexit
    · -- the iteration ends the run
      have hstep : seccompBpfLoop prog data (fuel + 1) pc m = ([pc], e) := by
        simp only [seccompBpfLoop, hfetch, hexec]
      have hlast : seccompBpfLastMachine prog data (fuel + 1) pc m = m := by
        simp only [seccompBpfLastMachine, hfetch, hexec]
      refine ⟨[], by rw [hstep], List.IsChain.singleton pc, ?_, by simp only [List.length_nil]; omega,
        by rw [hstep, hlast]; exact hexit⟩
      intro q hq
      rw [List.mem_singleton.mp hq]
      exact ⟨le_refl pc, hpc⟩

end Validated

/-! ## Safety of accepted filters -/

/-- On every filter seccomp_bpf_validate accepts and every snapshot, the run
executes at most length instructions, all inside the program; each BPF_ABS
load stays inside seccomp_data; each scratch access is below BPF_MEMWORDS and
each scratch read follows a store to its word on the same path; and the run
ends at its last instruction, a BPF_RET returning k or the accumulator the
run holds there, or a BPF_DIV whose X the run holds as 0 there, never at a
default branch or past the end. -/
theorem seccompBpfRun_safe (prog : List SockFilter) (hval : seccompBpfValidate prog = eok)
    (data : Nat → UInt8) {path : List Nat} {e : BpfExit} (hrun : seccompBpfExecute prog data = (path, e)) :
    path.length ≤ prog.length ∧
    (∀ pc ∈ path, pc < prog.length) ∧
    (∀ pc ∈ path, (insnAt prog pc).code = bpfLd ||| bpfW ||| bpfAbs →
      (insnAt prog pc).k.toNat + 4 ≤ seccompDataSize) ∧
    (∀ pc ∈ path, ∀ w, scratchRead (insnAt prog pc) = some w ∨ scratchWrite (insnAt prog pc) = some w →
      w < bpfMemwords.toNat) ∧
    (∀ pre pc post, path = pre ++ pc :: post → ∀ w, scratchRead (insnAt prog pc) = some w →
      ∃ p ∈ pre, scratchWrite (insnAt prog p) = some w) ∧
    e ≠ .unknownOp ∧ e ≠ .fallOff ∧
    seccompBpfRun prog data = e.value ∧
    ∃ pc, path.getLast? = some pc ∧
      RetOrDivExit (insnAt prog pc) (seccompBpfLastMachine prog data prog.length 0 BpfMachine.init) e := by
  obtain ⟨F, hv⟩ := validated_of_validate hval
  obtain ⟨rest, hpath, hchain, hbound, hlen, hexit⟩ :=
    hv.loop data prog.length 0 BpfMachine.init hv.length_pos (by omega)
  unfold seccompBpfExecute at hrun
  rw [hrun] at hpath hexit
  dsimp only at hpath hexit
  subst hpath
  -- the pass reaches index 0 with the empty mask, so the path starts with nothing stored
  obtain ⟨hreach0, hval0⟩ := hv.zero
  have hstored : ReadsStored prog [] (0 :: rest) :=
    hv.readsStored rest hv.length_pos hreach0 (hval0 ▸ maskCovered_zero []) hchain
  have hin : ∀ pc ∈ 0 :: rest, pc < prog.length := fun pc hpc => (hbound pc hpc).2
  refine ⟨by simp only [List.length_cons]; omega, hin, fun pc hpc => (hv.shape (hin pc hpc)).abs_bound, ?_, ?_,
    hexit.ne_unknownOp, hexit.ne_fallOff, by simp [seccompBpfRun, seccompBpfExecute, hrun],
    _, List.getLast?_eq_some_getLast (List.cons_ne_nil _ _), hexit⟩
  · intro pc hpc w hw
    have hk : ∀ {w : Nat} {ins : SockFilter}, ins.k < bpfMemwords ∧ w = ins.k.toNat → w < bpfMemwords.toNat :=
      fun ⟨hk, hw⟩ => hw ▸ hk
    rcases hw with hr | hwr
    · exact hk ((hv.shape (hin pc hpc)).scratchRead_eq hr).2
    · exact hk ((hv.shape (hin pc hpc)).scratchWrite_eq hwr).2
  · intro pre pc post hsplit w hr
    rw [hsplit] at hstored
    simpa using hstored.of_append pre w hr

/-- A filter that loads the system call number, passes it through scratch
word 0, and allows only when it is not 59. -/
def allowUnlessExecve : List SockFilter :=
  [⟨bpfLd ||| bpfW ||| bpfAbs, 0, 0, 0⟩, ⟨bpfSt, 0, 0, 0⟩, ⟨bpfLd ||| bpfMem, 0, 0, 0⟩,
    ⟨bpfJmp ||| bpfJeq ||| bpfK, 0, 1, 59⟩, ⟨bpfRet ||| bpfK, 0, 0, 0⟩, ⟨bpfRet ||| bpfK, 0, 0, 0x7fff0000⟩]

theorem seccompBpfRun_safe_allowUnlessExecve :
    seccompBpfValidate allowUnlessExecve = eok ∧
    seccompBpfExecute allowUnlessExecve (fun _ => 0) = ([0, 1, 2, 3, 5], .ret 0x7fff0000) ∧
    [0, 1, 2, 3, 5].length ≤ allowUnlessExecve.length ∧
    (∀ pc ∈ [0, 1, 2, 3, 5], pc < allowUnlessExecve.length) ∧
    (∀ pc ∈ [0, 1, 2, 3, 5], (insnAt allowUnlessExecve pc).code = bpfLd ||| bpfW ||| bpfAbs →
      (insnAt allowUnlessExecve pc).k.toNat + 4 ≤ seccompDataSize) ∧
    (∀ pc ∈ [0, 1, 2, 3, 5], ∀ w, scratchRead (insnAt allowUnlessExecve pc) = some w ∨
      scratchWrite (insnAt allowUnlessExecve pc) = some w → w < bpfMemwords.toNat) ∧
    (∀ pre pc post, [0, 1, 2, 3, 5] = pre ++ pc :: post → ∀ w, scratchRead (insnAt allowUnlessExecve pc) = some w →
      ∃ p ∈ pre, scratchWrite (insnAt allowUnlessExecve p) = some w) ∧
    BpfExit.ret 0x7fff0000 ≠ .unknownOp ∧ BpfExit.ret 0x7fff0000 ≠ .fallOff ∧
    seccompBpfRun allowUnlessExecve (fun _ => 0) = (BpfExit.ret 0x7fff0000).value ∧
    ∃ pc, [0, 1, 2, 3, 5].getLast? = some pc ∧
      RetOrDivExit (insnAt allowUnlessExecve pc)
        (seccompBpfLastMachine allowUnlessExecve (fun _ => 0) allowUnlessExecve.length 0 BpfMachine.init)
        (.ret 0x7fff0000) :=
  have hval : seccompBpfValidate allowUnlessExecve = eok := by decide +kernel
  have hrun : seccompBpfExecute allowUnlessExecve (fun _ => 0) = ([0, 1, 2, 3, 5], .ret 0x7fff0000) := by
    decide +kernel
  ⟨hval, hrun, seccompBpfRun_safe allowUnlessExecve hval (fun _ => 0) hrun⟩

end Uinxed.Seccomp
