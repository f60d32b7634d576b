/-
  Sched/Accounting.lean --- the bookkeeping identity of an EEVDF runqueue.

  A runqueue is accounted when avg_load is the sum of the queued weights,
  nr_running the number of queued tasks, avg_vruntime (read modulo 2^64) the
  sum of (vruntime - min_vruntime) * weight over them, and every queued task
  is READY; the three sums are OffsetSum's.

  What breaks it is dequeue_entity on a runqueue that does not hold the task:
  avg_load then loses a weight that was never added.  task_stop and
  task_set_cpu dequeue a READY task from the runqueue its cpu_id names, and
  task_set_cpu moves a READY task without asking whether it still runs.  A
  task that blocks on CPU 0, is woken and moved to CPU 1 before CPU 0 has
  switched away from it, is picked by CPU 1 and then re-queued by CPU 0's
  sched_switch, sits in CPU 0's timeline with cpu_id 1; stopping it leaves
  it STOPPED in CPU 0's timeline and drives CPU 1's avg_load below zero.
-/
import Uinxed.Sched.Eevdf
import Uinxed.Lib.OffsetSum

set_option autoImplicit false

namespace Uinxed.Sched

open OffsetSum

/-! ## The identity -/

/-- A task's weight as avg_load counts it. -/
def loadWeight (tasks : Nat → SchedTask) (t : Nat) : UInt64 := (tasks t).weight.toUInt64

/-- A task's vruntime. -/
def taskVruntime (tasks : Nat → SchedTask) (t : Nat) : UInt64 := (tasks t).vruntime

/-- What avg_load of runqueue c should be. -/
def timelineLoad (s : SchedState) (c : Nat) : UInt64 :=
  weightSum (loadWeight s.tasks) (s.rqs c).timeline

/-- What avg_vruntime of runqueue c should be, modulo 2^64. -/
def timelineOffsetSum (s : SchedState) (c : Nat) : UInt64 :=
  offsetSum (taskVruntime s.tasks) (loadWeight s.tasks) (s.rqs c).minVruntime (s.rqs c).timeline

/-- The bookkeeping of runqueue c agrees with its timeline. -/
structure RqAccounted (s : SchedState) (c : Nat) : Prop where
  avg_load : (s.rqs c).avgLoad = timelineLoad s c
  nr_running : (s.rqs c).nrRunning.toNat = (s.rqs c).timeline.length
  avg_vruntime : (s.rqs c).avgVruntime.toUInt64 = timelineOffsetSum s c
  ready : ∀ t ∈ (s.rqs c).timeline, (s.tasks t).state = .ready

/-- The identity reads a runqueue and the state, vruntime and weight of the
tasks in its timeline, nothing else. -/
theorem RqAccounted.congr {s s' : SchedState} {c : Nat} (h : RqAccounted s c)
    (hrq : s'.rqs c = s.rqs c)
    (ht : ∀ u ∈ (s.rqs c).timeline, (s'.tasks u).state = (s.tasks u).state ∧
      (s'.tasks u).vruntime = (s.tasks u).vruntime ∧ (s'.tasks u).weight = (s.tasks u).weight) :
    RqAccounted s' c := by
  have hload : timelineLoad s' c = timelineLoad s c := by
    unfold timelineLoad
    rw [hrq]
    exact weightSum_congr _ fun u hu => by simp [loadWeight, (ht u hu).2.2]
  have hsum : timelineOffsetSum s' c = timelineOffsetSum s c := by
    unfold timelineOffsetSum
    rw [hrq]
    exact offsetSum_congr _ _ _ fun u hu => by simp [taskVruntime, loadWeight, (ht u hu).2.1, (ht u hu).2.2]
  refine ⟨?_, ?_, ?_, ?_⟩
  · rw [hload, hrq, h.avg_load]
  · rw [hrq, h.nr_running]
  · rw [hsum, hrq, h.avg_vruntime]
  · intro u hu
    rw [hrq] at hu
    rw [(ht u hu).1, h.ready u hu]

/-! ## The bookkeeping operations -/

/-- The runqueue after dequeue_entity, whether or not it holds the task. -/
theorem dequeueEntity_rqs_self (s : SchedState) (c t : Nat) :
    (dequeueEntity s c t).rqs c =
      { (s.rqs c) with
        timeline := (s.rqs c).timeline.erase t
        nrRunning := if (s.rqs c).nrRunning ≠ 0 then (s.rqs c).nrRunning - 1 else (s.rqs c).nrRunning
        avgVruntime := (s.rqs c).avgVruntime - vruntimeContribution s c t
        avgLoad := (s.rqs c).avgLoad - loadWeight s.tasks t } := by
  simp [dequeueEntity, avgVruntimeSub, vruntimeContribution, loadWeight]

@[simp] theorem dequeueEntity_rqs_ne (s : SchedState) {c d : Nat} (t : Nat) (hd : d ≠ c) :
    (dequeueEntity s c t).rqs d = s.rqs d := by
  simp [dequeueEntity, avgVruntimeSub, hd]

@[simp] theorem dequeueEntity_tasks (s : SchedState) (c t : Nat) : (dequeueEntity s c t).tasks = s.tasks := by
  simp [dequeueEntity, avgVruntimeSub]

/-- dequeue_entity of a task the runqueue does not hold takes a weight out
of avg_load that was never put in. -/
theorem RqAccounted.dequeueEntity_not_mem {s : SchedState} {c t : Nat} (h : RqAccounted s c)
    (hnot : t ∉ (s.rqs c).timeline) (hw : (s.tasks t).weight ≠ 0) :
    ¬ RqAccounted (Uinxed.Sched.dequeueEntity s c t) c := by
  intro h'
  have hload := h'.avg_load
  rw [timelineLoad, dequeueEntity_rqs_self, dequeueEntity_tasks] at hload
  simp only [List.erase_of_not_mem hnot] at hload
  rw [h.avg_load, timelineLoad, sub_eq_self] at hload
  apply hw
  have hnat := congrArg UInt64.toNat hload
  simp only [loadWeight, UInt32.toNat_toUInt64, UInt64.toNat_zero] at hnat
  exact UInt32.toNat_inj.mp hnat

/-! ## task_stop on the wrong runqueue -/

/-- task_stop of a READY task whose cpu_id names a CPU: dequeue it from that
CPU's runqueue and mark it STOPPED. -/
theorem taskStop_ready {s : SchedState} {t : Nat} (hready : (s.tasks t).state = .ready)
    (hcpu : (s.tasks t).cpuId < s.cpuSchedulerCount) :
    (taskStop s t).1 =
      (dequeueEntity s (s.tasks t).cpuId t).modifyTask t fun x => { x with state := .stopped } := by
  simp [taskStop, hready, hcpu]

/-- A READY task queued on a runqueue other than the one its cpu_id names is
left in that timeline, STOPPED, by task_stop. -/
theorem taskStop_foreign_unaccounted {s : SchedState} {c t : Nat} (hready : (s.tasks t).state = .ready)
    (hcpu : (s.tasks t).cpuId < s.cpuSchedulerCount) (hq : t ∈ (s.rqs c).timeline)
    (hne : (s.tasks t).cpuId ≠ c) : ¬ RqAccounted (taskStop s t).1 c := by
  rw [taskStop_ready hready hcpu]
  intro h
  have hq' : t ∈ (((dequeueEntity s (s.tasks t).cpuId t).modifyTask t
      fun x => { x with state := .stopped }).rqs c).timeline := by
    rwa [SchedState.modifyTask_rqs, dequeueEntity_rqs_ne _ _ (Ne.symm hne)]
  have hstate := h.ready t hq'
  simp at hstate

/-- Stopping a READY task that the runqueue its cpu_id names does not hold
takes the task's weight out of that runqueue's avg_load. -/
theorem taskStop_unqueued_unaccounted {s : SchedState} {t : Nat} (hready : (s.tasks t).state = .ready)
    (hcpu : (s.tasks t).cpuId < s.cpuSchedulerCount)
    (h : RqAccounted s (s.tasks t).cpuId) (hnot : t ∉ (s.rqs (s.tasks t).cpuId).timeline)
    (hw : (s.tasks t).weight ≠ 0) : ¬ RqAccounted (taskStop s t).1 (s.tasks t).cpuId := by
  rw [taskStop_ready hready hcpu]
  intro h'
  apply h.dequeueEntity_not_mem hnot hw
  -- marking t STOPPED is invisible to a runqueue that does not hold t
  refine h'.congr (by simp) fun u hu => ?_
  have hu' : u ∈ (s.rqs (s.tasks t).cpuId).timeline := by
    simpa [dequeueEntity_rqs_self, List.erase_of_not_mem hnot] using hu
  have hut : u ≠ t := fun e => hnot (e ▸ hu')
  simp [hut]

/-- An interleaving on two CPUs, tasks 2 and 3 created on CPU 0 and task 4
on CPU 1.  CPU 0 runs task 2 and CPU 1 task 4.  Task 2 blocks; before CPU 0
switches away from it, task 4 wakes it (task_wakeup enqueues it on CPU 0,
since it is still on_cpu), moves it to CPU 1 with task_set_cpu, and blocks.
CPU 1 switches to task 2, which is still running on CPU 0; then CPU 0's
sched_switch finds it RUNNING, requeues it on CPU 0 and runs task 3. -/
def setCpuRace : List SchedAction :=
  [.enqueue 2 0 true, .enqueue 3 0 true, .enqueue 4 1 true, .switch 0 true none, .switch 1 true none,
    .block 0, .enqueue 2 0 false, .setCpu 2 1, .block 1, .switch 1 true none, .switch 0 true none]

/-- After the race, stopping task 2 breaks the identity on both CPUs: task 2
stays STOPPED in CPU 0's timeline, and CPU 1's avg_load loses a weight it
never had. -/
theorem taskStop_after_setCpu_race_unaccounted :
    SchedReachable (schedRun (SchedState.init 2) (setCpuRace ++ [.stop 2])) ∧
      ¬ RqAccounted (schedRun (SchedState.init 2) (setCpuRace ++ [.stop 2])) 0 ∧
      ¬ RqAccounted (schedRun (SchedState.init 2) (setCpuRace ++ [.stop 2])) 1 := by
  have hrun : schedRun (SchedState.init 2) (setCpuRace ++ [.stop 2]) =
      (taskStop (schedRun (SchedState.init 2) setCpuRace) 2).1 := by
    simp [schedRun, List.foldl_append, schedStep]
  -- the state the race leaves: task 2 READY in CPU 0's timeline with cpu_id 1
  have hready : ((schedRun (SchedState.init 2) setCpuRace).tasks 2).state = .ready := by decide +kernel
  have hcpu : ((schedRun (SchedState.init 2) setCpuRace).tasks 2).cpuId = 1 := by decide +kernel
  have hcount : (schedRun (SchedState.init 2) setCpuRace).cpuSchedulerCount = 2 := by decide +kernel
  have hq : 2 ∈ ((schedRun (SchedState.init 2) setCpuRace).rqs 0).timeline := by decide +kernel
  have hnot : 2 ∉ ((schedRun (SchedState.init 2) setCpuRace).rqs 1).timeline := by decide +kernel
  have hw : ((schedRun (SchedState.init 2) setCpuRace).tasks 2).weight ≠ 0 := by decide +kernel
  have hacc : RqAccounted (schedRun (SchedState.init 2) setCpuRace) 1 :=
    ⟨by decide +kernel, by decide +kernel, by decide +kernel, by decide +kernel⟩
  refine ⟨(SchedReachable.init 2).run _, ?_, ?_⟩
  · rw [hrun]
    exact taskStop_foreign_unaccounted hready (by omega) hq (by omega)
  · rw [hrun, ← hcpu]
    exact taskStop_unqueued_unaccounted hready (by omega) (hcpu ▸ hacc) (hcpu ▸ hnot) hw

end Uinxed.Sched
