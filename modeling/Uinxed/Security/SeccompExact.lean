/-
  Security/SeccompExact.lean --- the data-flow pass of seccomp_bpf_validate
  rejects exactly the programs with an uninitialised scratch read.

  Once the first loop and the BPF_RET test pass, seccomp_bpf_validate returns
  -EINVAL exactly when the data-flow pass fails.  The pass meets the masks of
  all predecessors bitwise, and a store only sets its own word's bit, so word
  k's bit is clear at an index exactly when some path to it stores nothing to
  k: a clear bit after a meet was clear in one of its arguments, and a clear
  bit after a store was clear before it (ForwardPass.run_traced traces it back
  to a path).  Conversely, along a path that stores nothing to k the bit stays
  clear, because the pass's soundness keeps each successor's mask below what
  flows out (Validated.sound).  A pass fails at the first reached load whose
  bit is clear, so it fails if and only if some path from instruction 0 reaches
  a load of a word that no instruction on the path stored.
-/
import Uinxed.Security.SeccompBpfSafety

set_option autoImplicit false

namespace Uinxed.Seccomp

/-- Instruction ins is BPF_ST or BPF_STX of scratch word k. -/
def StoresWord (ins : SockFilter) (k : UInt32) : Prop :=
  (ins.code = bpfSt ∨ ins.code = bpfStx) ∧ ins.k = k

/-- Instruction ins is BPF_LD|BPF_MEM or BPF_LDX|BPF_MEM of scratch word k. -/
def LoadsWord (ins : SockFilter) (k : UInt32) : Prop :=
  (ins.code = bpfLd ||| bpfMem ∨ ins.code = bpfLdx ||| bpfMem) ∧ ins.k = k

/-- A control-flow edge from i to j (both targets of a conditional jump, the
offset of BPF_JA, the next instruction otherwise, none after BPF_RET), with
instruction i not a store to word k. -/
def EdgeWithoutStore (prog : List SockFilter) (k : UInt32) (i j : Nat) : Prop :=
  ¬StoresWord (insnAt prog i) k ∧ j ∈ memorySuccessors prog i

/-! ## Scratch words of accepted instructions -/

theorem ValidShape.store_lt {ins : SockFilter} {i L : Nat} (hs : ValidShape i L ins)
    (hst : ins.code = bpfSt ∨ ins.code = bpfStx) : ins.k < bpfMemwords := by
  have hwrite : scratchWrite ins = some ins.k.toNat := by
    rcases hst with h | h <;> simp +decide [scratchWrite, h]
  exact (hs.scratchWrite_eq hwrite).2.1

theorem ValidShape.load_lt {ins : SockFilter} {i L : Nat} (hs : ValidShape i L ins)
    (hld : ins.code = bpfLd ||| bpfMem ∨ ins.code = bpfLdx ||| bpfMem) : ins.k < bpfMemwords := by
  have hread : scratchRead ins = some ins.k.toNat := by
    rcases hld with h | h <;> simp +decide [scratchRead, h]
  exact (hs.scratchRead_eq hread).2.1

/-! ## One bit of a mask -/

section Bit

variable {k : UInt32} (hk : k < bpfMemwords)

include hk in
/-- Word k's bit is clear in a mask. -/
theorem and_memoryBit_eq_zero_iff (m : UInt16) : m &&& memoryBit k = 0 ↔ m.toNat.testBit k.toNat = false := by
  constructor
  · intro h
    have hbit := congrArg (fun x : UInt16 => x.toNat.testBit k.toNat) h
    simpa [UInt16.toNat_and, Nat.testBit_and, memoryBit_toNat hk] using hbit
  · intro hb
    by_contra h
    rw [testBit_of_and_memoryBit hk h] at hb
    exact Bool.noConfusion hb

include hk in
/-- A bit clear in a meet is clear in one of its arguments. -/
theorem and_memoryBit_of_meet {a c : UInt16} (h : (a &&& c) &&& memoryBit k = 0) :
    a &&& memoryBit k = 0 ∨ c &&& memoryBit k = 0 := by
  rw [and_memoryBit_eq_zero_iff hk, UInt16.toNat_and, Nat.testBit_and, Bool.and_eq_false_iff] at h
  rw [and_memoryBit_eq_zero_iff hk, and_memoryBit_eq_zero_iff hk]
  exact h

/-- A bit clear in a mask is clear in every mask below it. -/
theorem and_memoryBit_of_maskLe {a b : UInt16} (hab : maskLe a b) (h : b &&& memoryBit k = 0) :
    a &&& memoryBit k = 0 := by
  rw [← hab, UInt16.and_assoc, h, UInt16.and_zero]

include hk in
/-- A bit clear after instruction i was clear before it, and i does not
store to its word. -/
theorem memoryOut_clear (prog : List SockFilter) (i : Nat) {x : UInt16}
    (h : memoryOut prog i x &&& memoryBit k = 0) : x &&& memoryBit k = 0 ∧ ¬StoresWord (insnAt prog i) k := by
  unfold memoryOut at h
  dsimp only at h
  by_cases hst : (insnAt prog i).code = bpfSt ∨ (insnAt prog i).code = bpfStx
  · rw [if_pos hst, and_memoryBit_eq_zero_iff hk, UInt16.toNat_or, Nat.testBit_or, Bool.or_eq_false_iff] at h
    refine ⟨(and_memoryBit_eq_zero_iff hk x).mpr h.1, fun ⟨_, hki⟩ => ?_⟩
    -- a store to word k sets k's bit
    have hset := h.2
    rw [hki, memoryBit_toNat hk, Nat.testBit_two_pow_self] at hset
    exact Bool.noConfusion hset
  · rw [if_neg hst] at h
    exact ⟨h, fun hs => hst hs.1⟩

include hk in
/-- An accepted instruction that does not store to word k leaves its bit
clear. -/
theorem memoryOut_clear_of {prog : List SockFilter} {i : Nat} (hs : ValidShape i prog.length (insnAt prog i))
    {x : UInt16} (h : x &&& memoryBit k = 0) (hnst : ¬StoresWord (insnAt prog i) k) :
    memoryOut prog i x &&& memoryBit k = 0 := by
  unfold memoryOut
  dsimp only
  by_cases hst : (insnAt prog i).code = bpfSt ∨ (insnAt prog i).code = bpfStx
  · -- a store to another word, below BPF_MEMWORDS, sets another bit
    have hki : (insnAt prog i).k ≠ k := fun e => hnst ⟨hst, e⟩
    have hlt := hs.store_lt hst
    rw [if_pos hst, and_memoryBit_eq_zero_iff hk, UInt16.toNat_or, Nat.testBit_or, memoryBit_toNat hlt,
      Nat.testBit_two_pow, (and_memoryBit_eq_zero_iff hk x).mp h, Bool.false_or, decide_eq_false_iff_not]
    exact fun e => hki (UInt32.toNat_inj.mp e)
  · rw [if_neg hst]
    exact h

end Bit

/-- The check of instruction q fails exactly on a load of a word whose bit
the mask lacks. -/
theorem memoryCheck_eq_false_iff {prog : List SockFilter} {q : Nat} {mask : UInt16} :
    memoryCheck prog q mask = false ↔ ∃ k, LoadsWord (insnAt prog q) k ∧ mask &&& memoryBit k = 0 := by
  simp only [memoryCheck, Bool.not_eq_false', Bool.and_eq_true, Bool.or_eq_true, decide_eq_true_eq, LoadsWord]
  constructor
  · rintro ⟨hld, hclear⟩
    exact ⟨_, ⟨hld, rfl⟩, hclear⟩
  · rintro ⟨k, ⟨hld, rfl⟩, hclear⟩
    exact ⟨hld, hclear⟩

/-! ## Exactness of the pass -/

/-- With the start of the pass, only index 0 is reached, by the empty path. -/
theorem traced_memoryFactsInit (prog : List SockFilter) (P : UInt16 → Prop) (Q : Nat → Prop) :
    ForwardPass.Traced (memorySuccessors prog) P Q 0 memoryFactsInit := by
  intro j hj _
  have hj0 : j = 0 := by simpa [memoryFactsInit] using hj
  rw [hj0]

/-- A failed pass is explained by a path from instruction 0 to a load of a
word that no instruction on the path stores to. -/
theorem uninitialisedRead_of_dataflow_eq_none {prog : List SockFilter}
    (hins : ∀ i < prog.length, seccompBpfValidInsn (insnAt prog i) i prog.length = true)
    (h : seccompBpfDataflow prog = none) :
    ∃ q < prog.length, ∃ k, LoadsWord (insnAt prog q) k ∧ Relation.ReflTransGen (EdgeWithoutStore prog k) 0 q := by
  obtain ⟨q, hq, G, hrun, hreach, hcheck⟩ := ForwardPass.run_eq_none h
  obtain ⟨k, hload, hclear⟩ := memoryCheck_eq_false_iff.mp hcheck
  have hk : k < bpfMemwords := hload.2 ▸ (validShape_of_valid (hins q hq)).load_lt hload.1
  -- the clear bit of q is traced back through the meets and stores of the pass
  have htraced : ForwardPass.Traced (memorySuccessors prog) (fun m => m &&& memoryBit k = 0)
      (fun i => ¬StoresWord (insnAt prog i) k) 0 G :=
    ForwardPass.run_traced (fun _ _ => and_memoryBit_of_meet hk) (fun i _ => memoryOut_clear hk prog i)
      (traced_memoryFactsInit prog _ _) hrun
  exact ⟨q, hq, k, hload, htraced q hreach hclear⟩

/-- Along a path from instruction 0 that stores nothing to word k, the
accepted pass reaches every index with k's bit clear. -/
theorem Validated.clear_of_path {prog : List SockFilter} {F : ForwardPass.Facts UInt16} (hv : Validated prog F)
    {k : UInt32} (hk : k < bpfMemwords) {j : Nat} (hpath : Relation.ReflTransGen (EdgeWithoutStore prog k) 0 j) :
    j < prog.length ∧ F.reached j = true ∧ F.val j &&& memoryBit k = 0 := by
  induction hpath with
  | refl =>
    obtain ⟨hr, hv0⟩ := hv.zero
    exact ⟨hv.length_pos, hr, by rw [hv0, UInt16.zero_and]⟩
  | tail _ hedge ih =>
    obtain ⟨hi, hr, hclear⟩ := ih
    obtain ⟨hnst, hj⟩ := hedge
    -- the successor's mask is below what flows out of i, which keeps k's bit clear
    obtain ⟨hrj, hle⟩ := (hv.sound _ hi hr).2 _ hj
    exact ⟨(hv.successor_lt hi hj).2, hrj,
      and_memoryBit_of_maskLe hle (memoryOut_clear_of hk (hv.shape hi) hclear hnst)⟩

/-- An accepted pass leaves no path from instruction 0 to a load of a word
that the path does not store to. -/
theorem Validated.not_uninitialisedRead {prog : List SockFilter} {F : ForwardPass.Facts UInt16}
    (hv : Validated prog F) {q : Nat} (hq : q < prog.length) {k : UInt32} (hload : LoadsWord (insnAt prog q) k) :
    ¬Relation.ReflTransGen (EdgeWithoutStore prog k) 0 q := by
  intro hpath
  have hk : k < bpfMemwords := hload.2 ▸ (hv.shape hq).load_lt hload.1
  obtain ⟨-, hr, hclear⟩ := hv.clear_of_path hk hpath
  have hcheck := (hv.sound q hq hr).1
  rw [memoryCheck_eq_false_iff.mpr ⟨k, hload, hclear⟩] at hcheck
  exact Bool.noConfusion hcheck

/-- When the first loop and the BPF_RET test pass, seccomp_bpf_validate is
decided by the data-flow pass. -/
theorem seccompBpfValidate_of_checks {prog : List SockFilter} (hpos : 0 < prog.length)
    (hlen : prog.length ≤ seccompMaxInsnsPerFilter)
    (hins : (prog.zipIdx.all fun p => seccompBpfValidInsn p.1 p.2 prog.length) = true)
    (hret : bpfClass (insnAt prog (prog.length - 1)).code = bpfRet) :
    seccompBpfValidate prog = if (seccompBpfDataflow prog).isSome then eok else -einval := by
  unfold seccompBpfValidate
  dsimp only
  rw [if_neg (by omega), if_neg (by simp [hins]), if_neg (by simp [hret])]
  cases seccompBpfDataflow prog <;> rfl

theorem seccomp_validate_rejects_iff_uninitialised_read (prog : List SockFilter) (hpos : 0 < prog.length)
    (hlen : prog.length ≤ seccompMaxInsnsPerFilter)
    (hins : (prog.zipIdx.all fun p => seccompBpfValidInsn p.1 p.2 prog.length) = true)
    (hret : bpfClass (insnAt prog (prog.length - 1)).code = bpfRet) :
    seccompBpfValidate prog = -einval ↔
      ∃ q < prog.length, ∃ k, LoadsWord (insnAt prog q) k ∧ Relation.ReflTransGen (EdgeWithoutStore prog k) 0 q := by
  rw [seccompBpfValidate_of_checks hpos hlen hins hret]
  cases hF : seccompBpfDataflow prog with
  | none =>
    simp only [Option.isSome_none, Bool.false_eq_true, if_false, true_iff]
    exact uninitialisedRead_of_dataflow_eq_none (validInsn_of_all hins) hF
  | some F =>
    have hv : Validated prog F := ⟨hpos, validInsn_of_all hins, hret, hF⟩
    simp only [Option.isSome_some, if_true]
    constructor
    · intro h
      exact absurd h (by decide)
    · rintro ⟨q, hq, k, hload, hpath⟩
      exact absurd hpath (hv.not_uninitialisedRead hq hload)

/-- A filter that stores scratch word 0 on one branch of a test only and then
loads it. -/
def storeOnOneBranch : List SockFilter :=
  [⟨bpfJmp ||| bpfJeq ||| bpfK, 0, 1, 59⟩, ⟨bpfSt, 0, 0, 0⟩, ⟨bpfLd ||| bpfMem, 0, 0, 0⟩,
    ⟨bpfRet ||| bpfK, 0, 0, 0⟩]

theorem seccomp_validate_rejects_store_on_one_branch :
    seccompBpfValidate storeOnOneBranch = -einval ↔
      ∃ q < storeOnOneBranch.length, ∃ k, LoadsWord (insnAt storeOnOneBranch q) k ∧
        Relation.ReflTransGen (EdgeWithoutStore storeOnOneBranch k) 0 q :=
  seccomp_validate_rejects_iff_uninitialised_read storeOnOneBranch (by decide) (by decide) (by decide +kernel)
    (by decide)

end Uinxed.Seccomp
