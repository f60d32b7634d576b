/-
  Ipc/EpollGraph.lean --- what every run of epoll_ctl calls and target closes
  keeps: the registration graph has no cycle, and each instance's items,
  fd_count and max_fd agree.

  EpollInstance.Ok says that items[fd] is set only below EPOLL_MAX_FDS, for
  an active item that records fd, that fd_count counts the set slots, and
  that max_fd is the largest of them, or -1.  epoll_item_add, epoll_item_del
  (with its downward scan past holes), epoll_item_mod and epoll_target_close
  keep it.

  Under it the walk of epoll_path_reaches sees every item of an instance, so
  it answers true on every connected pair (pathReachesFrom_of_reach): an ADD
  it lets through never closes a cycle, and Digraph.Acyclic.insert_of_check
  carries acyclicity over it.  Every other call only removes edges.  What the
  walk does not bound is the length of a path (epoll_ctl_chain_exceeds_nests).
-/
import Uinxed.Ipc.Epoll
import Mathlib.Data.Finset.Card

set_option autoImplicit false

namespace Uinxed.Epoll

namespace EpollInstance

/-- The set slots of an item table, below EPOLL_MAX_FDS. -/
def slots (items : Nat → Option EpollItem) : Finset Nat :=
  (Finset.range epollMaxFds).filter fun fd => (items fd).isSome

/-- An instance whose items, fd_count and max_fd agree. -/
structure Ok (epi : EpollInstance) : Prop where
  bound : ∀ fd item, epi.items fd = some item → fd < epollMaxFds
  item : ∀ fd item, epi.items fd = some item → item.fd = fd ∧ item.active = true
  count : epi.fdCount = (slots epi.items).card
  maxFd_ge : ∀ fd item, epi.items fd = some item → (fd : Int) ≤ epi.maxFd
  maxFd_mem : epi.maxFd = -1 ∨ ∃ (fd : Nat) (item : EpollItem), (fd : Int) = epi.maxFd ∧ epi.items fd = some item

/-- The instances an instance watches. -/
def Watches (epi : EpollInstance) (b : Nat) : Prop :=
  ∃ fd item, epi.items fd = some item ∧ item.active = true ∧ item.file = .epoll b

/-! ### The slot set under one write -/

section Slots

variable (items : Nat → Option EpollItem)

theorem mem_slots {fd : Nat} : fd ∈ slots items ↔ fd < epollMaxFds ∧ (items fd).isSome := by
  simp [slots]

theorem slots_set_some {fd : Nat} (hfd : fd < epollMaxFds) (item : EpollItem) :
    slots (fun k => if k = fd then some item else items k) = insert fd (slots items) := by
  ext k
  by_cases hk : k = fd
  · subst hk
    simp [mem_slots, hfd]
  · simp [mem_slots, hk]

theorem slots_set_none (fd : Nat) :
    slots (fun k => if k = fd then none else items k) = (slots items).erase fd := by
  ext k
  by_cases hk : k = fd
  · simp [mem_slots, hk]
  · simp [mem_slots, hk]

end Slots

/-! ### The downward scan of epoll_item_del -/

/-- scanDown reaches every set slot at or below m. -/
theorem le_scanDown (items : Nat → Option EpollItem) (m : Nat) :
    ∀ k item, k ≤ m → items k = some item → (k : Int) ≤ scanDown items m := by
  induction m with
  | zero =>
    intro k item hk hitem
    obtain rfl : k = 0 := by omega
    simp [scanDown, hitem]
  | succ m ih =>
    intro k item hk hitem
    by_cases hm : (items (m + 1)).isSome
    · simp only [scanDown, hm, if_true]
      omega
    · -- slot m + 1 is empty, so k lies below it
      have hkm : k ≤ m := by
        rcases Nat.lt_or_eq_of_le hk with hlt | rfl
        · omega
        · simp [hitem] at hm
      simp only [scanDown, hm]
      exact ih k item hkm hitem

/-- scanDown stops at a set slot, or finds none. -/
theorem scanDown_mem (items : Nat → Option EpollItem) (m : Nat) :
    scanDown items m = -1 ∨ ∃ (fd : Nat) (item : EpollItem), (fd : Int) = scanDown items m ∧ items fd = some item := by
  induction m with
  | zero =>
    cases h0 : items 0 with
    | none => simp [scanDown, h0]
    | some item => exact .inr ⟨0, item, by simp [scanDown, h0], h0⟩
  | succ m ih =>
    cases hm : items (m + 1) with
    | none => simpa [scanDown, hm] using ih
    | some item => exact .inr ⟨m + 1, item, by simp [scanDown, hm], hm⟩

/-! ### What each item operation writes -/

variable {epi : EpollInstance}

/-- A table written at fd holds the written value there and the old one
elsewhere. -/
theorem eq_some_of_write {items items' : Nat → Option EpollItem} {fd : Nat} {v : Option EpollItem}
    (hitems : ∀ k, items' k = if k = fd then v else items k) {k : Nat} {item : EpollItem}
    (hk : items' k = some item) : (k = fd ∧ v = some item) ∨ (k ≠ fd ∧ items k = some item) := by
  rw [hitems] at hk
  by_cases hkf : k = fd
  · rw [if_pos hkf] at hk
    exact .inl ⟨hkf, hk⟩
  · rw [if_neg hkf] at hk
    exact .inr ⟨hkf, hk⟩

theorem itemAdd_eq_some {fd : Nat} {file : EpFile} {events : Nat} {epi' : EpollInstance}
    (hadd : epi.itemAdd fd file events = some epi') :
    fd < epollMaxFds ∧ epi.items fd = none ∧
      (∀ k, epi'.items k = if k = fd then some ⟨fd, events, file, true, false⟩ else epi.items k) ∧
      epi'.fdCount = epi.fdCount + 1 ∧ epi'.maxFd = if (fd : Int) > epi.maxFd then (fd : Int) else epi.maxFd := by
  unfold EpollInstance.itemAdd at hadd
  by_cases hfd : epollMaxFds ≤ fd
  · rw [if_pos hfd] at hadd
    cases hadd
  by_cases hset : (epi.items fd).isSome
  · rw [if_neg hfd, if_pos hset] at hadd
    cases hadd
  rw [if_neg hfd, if_neg hset, Option.some.injEq] at hadd
  subst hadd
  exact ⟨by omega, Option.not_isSome_iff_eq_none.mp hset, fun _ => rfl, rfl, rfl⟩

theorem itemDel_eq_some {fd : Nat} {epi' : EpollInstance} {old : EpollItem}
    (hdel : epi.itemDel fd = some (epi', old)) :
    fd < epollMaxFds ∧ (epi.items fd).isSome ∧
      (∀ k, epi'.items k = if k = fd then none else epi.items k) ∧ epi'.fdCount = epi.fdCount - 1 ∧
      epi'.maxFd = if (fd : Int) = epi.maxFd then scanDown (fun k => if k = fd then none else epi.items k) fd
        else epi.maxFd := by
  unfold EpollInstance.itemDel at hdel
  by_cases hfd : epollMaxFds ≤ fd
  · rw [if_pos hfd] at hdel
    cases hdel
  rw [if_neg hfd] at hdel
  cases hitem : epi.items fd with
  | none => simp [hitem] at hdel
  | some item =>
    simp only [hitem, Option.some.injEq, Prod.mk.injEq] at hdel
    obtain ⟨rfl, -⟩ := hdel
    exact ⟨by omega, rfl, fun _ => rfl, rfl, rfl⟩

theorem find_eq_some {fd : Nat} {item : EpollItem} (hfind : epi.find fd = some item) : epi.items fd = some item := by
  unfold EpollInstance.find at hfind
  split_ifs at hfind
  exact hfind

theorem itemMod_eq_some {fd events : Nat} {epi' : EpollInstance} (hmod : epi.itemMod fd events = some epi') :
    ∃ item, epi.items fd = some item ∧
      epi' = { epi with items := fun k => if k = fd then some { item with events := events } else epi.items k } := by
  unfold EpollInstance.itemMod at hmod
  split at hmod
  · cases hmod
  · rename_i item hfind
    cases hmod
    exact ⟨item, find_eq_some hfind, rfl⟩

/-! ### The item operations keep the bookkeeping -/

theorem empty_ok : EpollInstance.empty.Ok where
  bound _ _ h := by cases h
  item _ _ h := by cases h
  count := by simp [slots, EpollInstance.empty]
  maxFd_ge _ _ h := by cases h
  maxFd_mem := .inl rfl

theorem Ok.itemAdd (h : epi.Ok) {fd : Nat} {file : EpFile} {events : Nat} {epi' : EpollInstance}
    (hadd : epi.itemAdd fd file events = some epi') : epi'.Ok := by
  obtain ⟨hfd, hnone, hitems, hcount, hmax⟩ := itemAdd_eq_some hadd
  refine ⟨fun k item hk => ?_, fun k item hk => ?_, ?_, fun k item hk => ?_, ?_⟩
  · rcases eq_some_of_write hitems hk with ⟨rfl, -⟩ | ⟨-, hold⟩
    · exact hfd
    · exact h.bound k item hold
  · rcases eq_some_of_write hitems hk with ⟨rfl, hnew⟩ | ⟨-, hold⟩
    · cases hnew
      exact ⟨rfl, rfl⟩
    · exact h.item k item hold
  · -- fd was free, so the slot set grows by one
    have hnotin : fd ∉ slots epi.items := by simp [mem_slots, hnone]
    rw [hcount, show epi'.items = _ from funext hitems, slots_set_some epi.items hfd,
      Finset.card_insert_of_notMem hnotin, h.count]
    omega
  · rw [hmax]
    rcases eq_some_of_write hitems hk with ⟨rfl, -⟩ | ⟨-, hold⟩
    · split_ifs <;> omega
    · have := h.maxFd_ge k item hold
      split_ifs <;> omega
  · rw [hmax]
    split_ifs with hgt
    · exact .inr ⟨fd, _, rfl, by rw [hitems, if_pos rfl]⟩
    · rcases h.maxFd_mem with hm | ⟨k, item, hkm, hitem⟩
      · exact .inl hm
      · -- the largest slot is not fd, which was free
        have hkf : k ≠ fd := by
          rintro rfl
          simp [hnone] at hitem
        exact .inr ⟨k, item, hkm, by rw [hitems, if_neg hkf, hitem]⟩

theorem Ok.itemDel (h : epi.Ok) {fd : Nat} {epi' : EpollInstance} {old : EpollItem}
    (hdel : epi.itemDel fd = some (epi', old)) : epi'.Ok := by
  obtain ⟨hfd, hset, hitems, hcount, hmax⟩ := itemDel_eq_some hdel
  have hin : fd ∈ slots epi.items := (mem_slots _).mpr ⟨hfd, hset⟩
  have hpos : 0 < (slots epi.items).card := Finset.card_pos.mpr ⟨fd, hin⟩
  -- every item left is an old one at another slot
  have hleft : ∀ k item, epi'.items k = some item → k ≠ fd ∧ epi.items k = some item := by
    intro k item hk
    rcases eq_some_of_write hitems hk with ⟨-, hnone⟩ | hold
    · cases hnone
    · exact hold
  refine ⟨fun k item hk => h.bound k item (hleft k item hk).2, fun k item hk => h.item k item (hleft k item hk).2,
    ?_, fun k item hk => ?_, ?_⟩
  · rw [hcount, show epi'.items = _ from funext hitems, slots_set_none, Finset.card_erase_of_mem hin, h.count]
    omega
  · obtain ⟨hkf, hold⟩ := hleft k item hk
    rw [hmax]
    split_ifs with hm
    · -- fd was max_fd, so k lies below it and the scan reaches it
      have hkle : (k : Int) ≤ fd := hm ▸ h.maxFd_ge k item hold
      exact le_scanDown _ fd k item (by omega) (by rw [if_neg hkf, hold])
    · exact h.maxFd_ge k item hold
  · rw [hmax]
    split_ifs with hm
    · rw [show epi'.items = _ from funext hitems]
      exact scanDown_mem _ fd
    · rcases h.maxFd_mem with hmax' | ⟨k, item, hk, hitem⟩
      · exact .inl hmax'
      · have hkf : k ≠ fd := by
          rintro rfl
          exact hm hk
        exact .inr ⟨k, item, hk, by rw [hitems, if_neg hkf, hitem]⟩

/-- A set item replaced by one with the same fd and activity: the shape of
epoll_item_mod and epoll_target_close. -/
theorem Ok.replace (h : epi.Ok) {fd : Nat} {item item' : EpollItem} (hitem : epi.items fd = some item)
    (hfd : item'.fd = item.fd) (hact : item'.active = item.active) :
    { epi with items := fun k => if k = fd then some item' else epi.items k }.Ok := by
  have hbound := h.bound fd item hitem
  have hitems : ∀ k, ({ epi with items := fun k => if k = fd then some item' else epi.items k } : EpollInstance).items k =
      if k = fd then some item' else epi.items k := fun _ => rfl
  refine ⟨fun k it hk => ?_, fun k it hk => ?_, ?_, fun k it hk => ?_, ?_⟩
  · rcases eq_some_of_write hitems hk with ⟨rfl, -⟩ | ⟨-, hold⟩
    · exact hbound
    · exact h.bound k it hold
  · rcases eq_some_of_write hitems hk with ⟨rfl, hnew⟩ | ⟨-, hold⟩
    · cases hnew
      rw [hfd, hact]
      exact h.item k item hitem
    · exact h.item k it hold
  · have hin : fd ∈ slots epi.items := (mem_slots _).mpr ⟨hbound, by simp [hitem]⟩
    change epi.fdCount = (slots fun k => if k = fd then some item' else epi.items k).card
    rw [slots_set_some epi.items hbound, Finset.insert_eq_of_mem hin]
    exact h.count
  · rcases eq_some_of_write hitems hk with ⟨rfl, -⟩ | ⟨-, hold⟩
    · exact h.maxFd_ge k item hitem
    · exact h.maxFd_ge k it hold
  · rcases h.maxFd_mem with hm | ⟨k, it, hk, hit⟩
    · exact .inl hm
    · by_cases hkf : k = fd
      · exact .inr ⟨k, item', hk, by rw [hitems, if_pos hkf]⟩
      · exact .inr ⟨k, it, hk, by rw [hitems, if_neg hkf, hit]⟩

theorem Ok.itemMod (h : epi.Ok) {fd events : Nat} {epi' : EpollInstance}
    (hmod : epi.itemMod fd events = some epi') : epi'.Ok := by
  obtain ⟨item, hitem, rfl⟩ := itemMod_eq_some hmod
  exact h.replace hitem rfl rfl

/-! ### The item operations add no watch but the new item's -/

theorem Watches.of_write {epi' : EpollInstance} {fd : Nat} {v : Option EpollItem}
    (hitems : ∀ k, epi'.items k = if k = fd then v else epi.items k) {b : Nat} (hw : epi'.Watches b) :
    epi.Watches b ∨ ∃ item, v = some item ∧ item.active = true ∧ item.file = .epoll b := by
  obtain ⟨k, item, hk, hact, hfile⟩ := hw
  rcases eq_some_of_write hitems hk with ⟨-, hnew⟩ | ⟨-, hold⟩
  · exact .inr ⟨item, hnew, hact, hfile⟩
  · exact .inl ⟨k, item, hold, hact, hfile⟩

theorem Watches.of_itemAdd {fd : Nat} {file : EpFile} {events : Nat} {epi' : EpollInstance} {b : Nat}
    (hadd : epi.itemAdd fd file events = some epi') (hw : epi'.Watches b) : epi.Watches b ∨ file = .epoll b := by
  obtain ⟨-, -, hitems, -⟩ := itemAdd_eq_some hadd
  rcases Watches.of_write hitems hw with hw | ⟨item, hnew, -, hfile⟩
  · exact .inl hw
  · cases hnew
    exact .inr hfile

theorem Watches.of_itemDel {fd : Nat} {epi' : EpollInstance} {old : EpollItem} {b : Nat}
    (hdel : epi.itemDel fd = some (epi', old)) (hw : epi'.Watches b) : epi.Watches b := by
  obtain ⟨-, -, hitems, -⟩ := itemDel_eq_some hdel
  rcases Watches.of_write hitems hw with hw | ⟨item, hnew, -⟩
  · exact hw
  · cases hnew

theorem Watches.of_replace {fd : Nat} {item item' : EpollItem} (hitem : epi.items fd = some item)
    (hfile : item'.file = item.file) (hact : item'.active = item.active) {b : Nat}
    (hw : { epi with items := fun k => if k = fd then some item' else epi.items k }.Watches b) : epi.Watches b := by
  have hitems : ∀ k, ({ epi with items := fun k => if k = fd then some item' else epi.items k } : EpollInstance).items k =
      if k = fd then some item' else epi.items k := fun _ => rfl
  rcases Watches.of_write hitems hw with hw | ⟨it, hnew, hitact, hitfile⟩
  · exact hw
  · cases hnew
    exact ⟨fd, item, hitem, hact ▸ hitact, hfile ▸ hitfile⟩

theorem Watches.of_itemMod {fd events : Nat} {epi' : EpollInstance} {b : Nat}
    (hmod : epi.itemMod fd events = some epi') (hw : epi'.Watches b) : epi.Watches b := by
  obtain ⟨item, hitem, rfl⟩ := itemMod_eq_some hmod
  exact Watches.of_replace hitem (show ({ item with events := events } : EpollItem).file = item.file from rfl) rfl hw

end EpollInstance

/-! ## The system -/

namespace EpollSystem

open EpollInstance

@[simp] theorem setInst_insts (s : EpollSystem) (id : Nat) (epi : EpollInstance) (k : Nat) :
    (s.setInst id epi).insts k = if k = id then epi else s.insts k := rfl

theorem edge_iff_watches (s : EpollSystem) (a b : Nat) : s.Edge a b ↔ (s.insts a).Watches b := Iff.rfl

/-- The edges of a system with one instance replaced: the old edges, and
from the replaced instance what its new watches add. -/
theorem edge_setInst {s : EpollSystem} {id : Nat} {epi : EpollInstance} {p : Nat → Prop}
    (hw : ∀ b, epi.Watches b → (s.insts id).Watches b ∨ p b) {a b : Nat} (hab : (s.setInst id epi).Edge a b) :
    s.Edge a b ∨ (a = id ∧ p b) := by
  rw [edge_iff_watches, setInst_insts] at hab
  split_ifs at hab with ha
  · subst ha
    rcases hw b hab with h | h
    · exact .inl h
    · exact .inr ⟨rfl, h⟩
  · exact .inl hab

/-- The registrations of every instance agree, and the graph has no cycle. -/
structure Ok (s : EpollSystem) : Prop where
  insts : ∀ id, (s.insts id).Ok
  acyclic : Digraph.Acyclic s.Edge

theorem insts_ok_setInst {s : EpollSystem} (h : ∀ k, (s.insts k).Ok) {id : Nat} {epi : EpollInstance}
    (he : epi.Ok) (k : Nat) : ((s.setInst id epi).insts k).Ok := by
  rw [setInst_insts]
  split_ifs
  · exact he
  · exact h k

/-- The walk of epoll_path_reaches, at any depth left, finds every instance
that start reaches: it looks at each slot up to max_fd, and every item is
there. -/
theorem pathReachesFrom_of_reach {s : EpollSystem} (h : ∀ id, (s.insts id).Ok) {a b : Nat}
    (hab : Relation.ReflTransGen s.Edge a b) (r : Nat) : s.pathReachesFrom b r a = true := by
  induction hab using Relation.ReflTransGen.head_induction_on generalizing r with
  | refl =>
    cases r with
    | zero => rfl
    | succ r => simp [pathReachesFrom]
  | @head a c hac _ ih =>
    cases r with
    | zero => rfl
    | succ r =>
      obtain ⟨fd, item, hitem, hact, hfile⟩ := hac
      have hle := (h a).maxFd_ge fd item hitem
      simp only [pathReachesFrom, Bool.or_eq_true, List.any_eq_true]
      refine .inr ⟨fd, List.mem_range.mpr (by omega), ?_⟩
      simp [hitem, hact, hfile, EpFile.instance?, ih r]

/-- What an epoll_ctl call does: nothing, or one of ctlAdd, ctlDel and ctlMod
on the instance epfd names, an ADD of an epoll instance only where the walk
from it does not reach that instance. -/
theorem sysEpollCtl_cases (s : EpollSystem) (epfd op fd : Nat) (event : Option Nat) :
    (sysEpollCtl s epfd op fd event).1 = s ∨
      (∃ epi target, (∀ tepi, target.instance? = some tepi → s.epollPathReaches tepi epi 0 = false) ∧
        (sysEpollCtl s epfd op fd event).1 = (ctlAdd s epi fd target event).1) ∨
      (∃ epi, (sysEpollCtl s epfd op fd event).1 = (ctlDel s epi fd).1) ∨
      (∃ epi, (sysEpollCtl s epfd op fd event).1 = (ctlMod s epi fd event).1) := by
  unfold sysEpollCtl
  by_cases hfd : epfd = fd
  · exact .inl (by rw [if_pos hfd])
  rw [if_neg hfd]
  cases hres : s.resolve epfd with
  | none => exact .inl rfl
  | some epi =>
    dsimp only
    by_cases hadd : op = epollCtlAdd
    · rw [if_pos hadd]
      cases hget : s.fdGet fd with
      | none => exact .inl rfl
      | some target =>
        dsimp only
        cases htepi : target.instance? with
        | none => exact .inr (.inl ⟨epi, target, fun t ht => by simp [htepi] at ht, rfl⟩)
        | some tepi =>
          dsimp only
          by_cases htself : tepi = epi
          · exact .inl (by rw [if_pos htself])
          by_cases hreach : s.epollPathReaches tepi epi 0 = true
          · exact .inl (by rw [if_neg htself, if_pos hreach])
          -- the ADD the walk let through
          refine .inr (.inl ⟨epi, target, fun t ht => ?_, by rw [if_neg htself, if_neg hreach]⟩)
          rw [htepi, Option.some.injEq] at ht
          subst ht
          simpa using hreach
    rw [if_neg hadd]
    by_cases hdel : op = epollCtlDel
    · exact .inr (.inr (.inl ⟨epi, by rw [if_pos hdel]⟩))
    rw [if_neg hdel]
    by_cases hmod : op = epollCtlMod
    · exact .inr (.inr (.inr ⟨epi, by rw [if_pos hmod]⟩))
    exact .inl (by rw [if_neg hmod])

end EpollSystem

/-! ## Each call keeps the bookkeeping and adds at most the checked edge -/

section Calls

open EpollInstance EpollSystem

variable {s : EpollSystem}

/-- The instance ctlAdd adds to: the one there, with an item whose target
was closed deleted first. -/
theorem ctlAdd_inst_spec (h : ∀ k, (s.insts k).Ok) (epi fd : Nat) :
    (match (s.insts epi).find fd with
      | some old => if old.targetClosed then ((s.insts epi).itemDel fd).elim (s.insts epi) Prod.fst else s.insts epi
      | none => s.insts epi).Ok ∧
    ∀ b, (match (s.insts epi).find fd with
      | some old => if old.targetClosed then ((s.insts epi).itemDel fd).elim (s.insts epi) Prod.fst else s.insts epi
      | none => s.insts epi).Watches b → (s.insts epi).Watches b := by
  split
  · split_ifs
    · cases hdel : (s.insts epi).itemDel fd with
      | none => exact ⟨h epi, fun _ hw => hw⟩
      | some r =>
        obtain ⟨inst, old⟩ := r
        exact ⟨(h epi).itemDel hdel, fun _ hw => Watches.of_itemDel hdel hw⟩
    · exact ⟨h epi, fun _ hw => hw⟩
  · exact ⟨h epi, fun _ hw => hw⟩

theorem ctlAdd_spec (h : ∀ k, (s.insts k).Ok) (epi fd : Nat) (target : EpFile) (event : Option Nat) :
    (∀ k, ((ctlAdd s epi fd target event).1.insts k).Ok) ∧
      ∀ a b, (ctlAdd s epi fd target event).1.Edge a b → s.Edge a b ∨ (a = epi ∧ target = .epoll b) := by
  obtain ⟨hok, hw⟩ := ctlAdd_inst_spec h epi fd
  unfold ctlAdd
  split
  · exact ⟨h, fun _ _ hab => .inl hab⟩
  · dsimp only
    split
    · exact ⟨insts_ok_setInst h hok, fun _ _ hab => edge_setInst (p := fun b => target = .epoll b) (fun b hb => .inl (hw b hb)) hab⟩
    · rename_i inst' hadd
      refine ⟨insts_ok_setInst h (hok.itemAdd hadd), fun _ _ hab => edge_setInst (p := fun b => target = .epoll b) (fun b hb => ?_) hab⟩
      rcases Watches.of_itemAdd hadd hb with hb | hb
      · exact .inl (hw b hb)
      · exact .inr hb

theorem ctlDel_spec (h : ∀ k, (s.insts k).Ok) (epi fd : Nat) :
    (∀ k, ((ctlDel s epi fd).1.insts k).Ok) ∧ ∀ a b, (ctlDel s epi fd).1.Edge a b → s.Edge a b := by
  unfold ctlDel
  split
  · exact ⟨h, fun _ _ hab => hab⟩
  · rename_i inst old hdel
    refine ⟨insts_ok_setInst h ((h epi).itemDel hdel), fun a b hab => ?_⟩
    rcases edge_setInst (p := fun _ => False) (fun b hb => .inl (Watches.of_itemDel hdel hb)) hab with hab | ⟨_, hf⟩
    · exact hab
    · exact hf.elim

theorem ctlMod_spec (h : ∀ k, (s.insts k).Ok) (epi fd : Nat) (event : Option Nat) :
    (∀ k, ((ctlMod s epi fd event).1.insts k).Ok) ∧ ∀ a b, (ctlMod s epi fd event).1.Edge a b → s.Edge a b := by
  unfold ctlMod
  split
  · exact ⟨h, fun _ _ hab => hab⟩
  · split
    · exact ⟨h, fun _ _ hab => hab⟩
    · rename_i inst hmod
      refine ⟨insts_ok_setInst h ((h epi).itemMod hmod), fun a b hab => ?_⟩
      rcases edge_setInst (p := fun _ => False) (fun b hb => .inl (Watches.of_itemMod hmod hb)) hab with hab | ⟨_, hf⟩
      · exact hab
      · exact hf.elim

theorem targetClose_spec (h : ∀ k, (s.insts k).Ok) (epi fd : Nat) :
    (∀ k, ((targetClose s epi fd).insts k).Ok) ∧ ∀ a b, (targetClose s epi fd).Edge a b → s.Edge a b := by
  unfold targetClose
  split
  · exact ⟨h, fun _ _ hab => hab⟩
  · rename_i item hitem
    have hfd : ({ item with targetClosed := true } : EpollItem).fd = item.fd := rfl
    have hfile : ({ item with targetClosed := true } : EpollItem).file = item.file := rfl
    refine ⟨insts_ok_setInst h ((h epi).replace hitem hfd rfl), fun a b hab => ?_⟩
    rcases edge_setInst (p := fun _ => False) (fun b hb => .inl (Watches.of_replace hitem hfile rfl hb)) hab with
      hab | ⟨_, hf⟩
    · exact hab
    · exact hf.elim

end Calls

/-! ## Every run -/

namespace EpollSystem

open EpollInstance

variable {s : EpollSystem}

theorem Ok.sysEpollCtl (h : s.Ok) (epfd op fd : Nat) (event : Option Nat) :
    (Uinxed.Epoll.sysEpollCtl s epfd op fd event).1.Ok := by
  rcases sysEpollCtl_cases s epfd op fd event with hs | ⟨epi, target, hreach, hs⟩ | ⟨epi, hs⟩ | ⟨epi, hs⟩ <;> rw [hs]
  · exact h
  · obtain ⟨hok, hedge⟩ := ctlAdd_spec h.insts epi fd target event
    refine ⟨hok, ?_⟩
    cases htarget : target.instance? with
    | none =>
      -- a file that is no instance adds no edge
      refine h.acyclic.mono fun a b hab => ?_
      rcases hedge a b hab with hab | ⟨_, hb⟩
      · exact hab
      · simp [hb, EpFile.instance?] at htarget
    | some tepi =>
      -- the one new edge epi → tepi was checked by the walk from tepi
      refine h.acyclic.insert_of_check (fun a b => s.epollPathReaches a b 0)
        (fun a b hab => pathReachesFrom_of_reach h.insts hab _) (hreach tepi htarget) fun a b hab => ?_
      rcases hedge a b hab with hab | ⟨rfl, hb⟩
      · exact .inl hab
      · simp only [hb, EpFile.instance?, Option.some.injEq] at htarget
        exact .inr ⟨rfl, htarget⟩
  · obtain ⟨hok, hedge⟩ := ctlDel_spec h.insts epi fd
    exact ⟨hok, h.acyclic.mono hedge⟩
  · obtain ⟨hok, hedge⟩ := ctlMod_spec h.insts epi fd event
    exact ⟨hok, h.acyclic.mono hedge⟩

theorem Ok.epollStep (h : s.Ok) (e : EpollEvent) : (Uinxed.Epoll.epollStep s e).1.Ok := by
  cases e with
  | ctl epfd op fd event => exact h.sysEpollCtl epfd op fd event
  | targetClose epi fd =>
    obtain ⟨hok, hedge⟩ := targetClose_spec h.insts epi fd
    exact ⟨hok, h.acyclic.mono hedge⟩

theorem Ok.epollRun (h : s.Ok) (evs : List EpollEvent) : (Uinxed.Epoll.epollRun s evs).1.Ok := by
  induction evs generalizing s with
  | nil => exact h
  | cons e evs ih => exact ih (h.epollStep e)

theorem init_ok (fds : Nat → Option EpFile) : (EpollSystem.init fds).Ok where
  insts _ := empty_ok
  acyclic a hc := by
    -- no instance holds an item, so there is no edge to start a cycle
    obtain ⟨c, ⟨fd, item, hitem, -⟩, -⟩ := Relation.TransGen.head'_iff.mp hc
    cases hitem

end EpollSystem

/-- From any descriptors, every run of epoll_ctl calls and target closes
leaves a registration graph without cycles, and every instance's items,
fd_count and max_fd in agreement. -/
theorem epoll_registrations_acyclic (fds : Nat → Option EpFile) (evs : List EpollEvent) :
    Digraph.Acyclic (epollRun (EpollSystem.init fds) evs).1.Edge ∧
      ∀ id, ((epollRun (EpollSystem.init fds) evs).1.insts id).Ok :=
  have h := (EpollSystem.init_ok fds).epollRun evs
  ⟨h.acyclic, h.insts⟩

/-- Two instances that try to watch each other: the second ADD is refused
with ELOOP, and the graph has no cycle. -/
theorem epoll_registrations_acyclic_mutual_add :
    (epollRun (EpollSystem.init fun fd => if fd < 2 then some (.epoll fd) else none)
      [.ctl 0 epollCtlAdd 1 (some epollIn), .ctl 1 epollCtlAdd 0 (some epollIn)]).2 = [0, -eloop] ∧
    Digraph.Acyclic (epollRun (EpollSystem.init fun fd => if fd < 2 then some (.epoll fd) else none)
      [.ctl 0 epollCtlAdd 1 (some epollIn), .ctl 1 epollCtlAdd 0 (some epollIn)]).1.Edge :=
  ⟨by decide, (epoll_registrations_acyclic _ _).1⟩

end Uinxed.Epoll
