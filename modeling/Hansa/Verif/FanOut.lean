import Hansa.Library.Prefix
import Hansa.Membrane

/-!
# Collecting a fan-out under a deadline

The synchronous path receives batches in the order in which workers finish, so what it has
received at the deadline is what was finished by then. The asynchronous path awaits the
workers in the order of the allocation under one timeout, so a slow worker hides the finished
ones behind it: at the deadline their batches are dropped and counted as late.
-/

namespace Hansa

variable {F : Type}

/-- The worker finishes before the deadline, if there is one. -/
def Worker.inTime (deadline : Option Nat) (w : Worker F) : Bool :=
  deadline.all (fun d => w.finish < d)

/-- The hits a worker delivers. -/
def Worker.hits (w : Worker F) : List (MembraneHit F) := w.batch.getD []

/-- What both paths promise: the batches of the workers in time are merged, and the
diagnostics count them and the others. -/
structure Reports (deadline : Option Nat) (workers : List (Worker F)) (out : Gathered F) :
    Prop where
  /-- Exactly the hits of the workers in time are merged. -/
  merged : out.hits.Perm ((workers.filter (Worker.inTime deadline)).flatMap Worker.hits)
  /-- A worker was launched for each peer. -/
  attempted : out.stats.peersAttempted = workers.length
  /-- The workers in time are counted. -/
  completed : out.stats.peersCompleted = workers.countP (Worker.inTime deadline)
  /-- The workers still pending at the deadline are counted. -/
  dropped : out.stats.droppedForDeadline = workers.countP (fun w => !w.inTime deadline)

/-- The diagnostics follow from the number of batches received. -/
theorem reports_gather_iff (collect : Schedule F → Option Nat → List (Worker F) → Collected F)
    (schedule : Schedule F) (deadline : Option Nat) (workers : List (Worker F)) :
    Reports deadline workers (gather collect schedule deadline workers) ↔
      (collect schedule deadline workers).completed = workers.countP (Worker.inTime deadline) ∧
      (collect schedule deadline workers).hits.Perm
        ((workers.filter (Worker.inTime deadline)).flatMap Worker.hits) := by
  constructor
  · exact fun reports => ⟨reports.completed, reports.merged⟩
  · rintro ⟨counted, merged⟩
    refine ⟨merged, rfl, counted, ?_⟩
    have whole := List.length_eq_countP_add_countP (Worker.inTime deadline) (l := workers)
    show workers.length - (collect schedule deadline workers).completed = _
    simp only [Bool.not_eq_true, Bool.decide_eq_false] at whole
    omega

/-! ## The synchronous path -/

/-- A batch that was sent before the deadline, if there is one. -/
def sentInTime (deadline : Option Nat) (sent : Nat × List (MembraneHit F)) : Bool :=
  deadline.all (fun d => sent.1 < d)

/-- The receive loop receives what was sent before the deadline. -/
theorem recvLoop_eq (deadline : Option Nat) {clock left : Nat}
    {arrivals : List (Nat × List (MembraneHit F))}
    (ordered : arrivals.Pairwise (fun a b => a.1 ≤ b.1)) (later : ∀ x ∈ arrivals, clock ≤ x.1)
    (room : arrivals.length ≤ left) :
    recvLoop deadline clock left arrivals =
      ⟨arrivals.countP (sentInTime deadline),
        (arrivals.filter (sentInTime deadline)).flatMap Prod.snd⟩ := by
  induction arrivals generalizing clock left with
  | nil => cases left <;> rfl
  | cons x arrivals ih =>
    obtain ⟨finish, batch⟩ := x
    obtain ⟨after, rest⟩ := List.pairwise_cons.mp ordered
    have reached : clock ≤ finish := later (finish, batch) List.mem_cons_self
    cases left with
    | zero => exact absurd room (by simp)
    | succ left =>
      have check : deadline.all (fun d => decide (clock < d) && decide (finish < d)) =
          sentInTime deadline (finish, batch) := by
        cases deadline with
        | none => rfl
        | some d =>
          show (decide (clock < d) && decide (finish < d)) = decide (finish < d)
          rw [Bool.and_eq_right_iff_imp, decide_eq_true_iff, decide_eq_true_iff]
          exact fun below => reached.trans_lt below
      rw [recvLoop, check]
      by_cases inTime : sentInTime deadline (finish, batch) = true
      · have ahead : ∀ y ∈ arrivals, max clock finish ≤ y.1 :=
          fun y member => (max_eq_right reached).le.trans (after y member)
        have next := ih rest ahead (Nat.le_of_succ_le_succ room)
        rw [if_pos inTime, next, List.countP_cons_of_pos inTime, List.filter_cons_of_pos inTime,
          List.flatMap_cons]
      · have none_ : ∀ y ∈ arrivals, ¬ sentInTime deadline y = true := by
          intro y member early
          cases deadline with
          | none => exact inTime rfl
          | some d =>
            refine inTime (decide_eq_true ((after y member).trans_lt ?_))
            exact of_decide_eq_true early
        rw [if_neg inTime, List.countP_cons_of_neg inTime, List.filter_cons_of_neg inTime,
          List.countP_eq_zero.mpr none_, List.filter_eq_nil_iff.mpr none_]
        rfl

/-- Workers with a batch send it at the time they finish. -/
theorem sent_delivered (workers : List (Worker F)) : Worker.sent workers =
    (workers.filter (fun w => w.batch.isSome)).map (fun w => (w.finish, w.hits)) := by
  unfold Worker.sent
  induction workers with
  | nil => rfl
  | cons w workers ih =>
    cases delivered : w.batch with
    | none =>
      rw [List.filterMap_cons_none (by rw [delivered]; rfl), ih,
        List.filter_cons_of_neg (by simp [delivered])]
    | some batch =>
      rw [List.filterMap_cons_some (b := (w.finish, batch)) (by rw [delivered]; rfl), ih,
        List.filter_cons_of_pos (by simp [delivered]), List.map_cons, Worker.hits, delivered]
      rfl

/-- Workers that deliver send one batch each, at the time they finish. -/
theorem sent_eq {workers : List (Worker F)} (deliver : ∀ w ∈ workers, w.batch.isSome) :
    Worker.sent workers = workers.map (fun w => (w.finish, w.hits)) := by
  rw [sent_delivered, List.filter_eq_self.mpr deliver]

/-- Workers without a batch have no hits. -/
theorem flatMap_delivered (workers : List (Worker F)) :
    (workers.filter (fun w => w.batch.isSome)).flatMap Worker.hits =
      workers.flatMap Worker.hits := by
  induction workers with
  | nil => rfl
  | cons w workers ih =>
    cases delivered : w.batch with
    | none =>
      rw [List.filter_cons_of_neg (by simp [delivered]), ih, List.flatMap_cons, Worker.hits,
        delivered]
      rfl
    | some batch =>
      rw [List.filter_cons_of_pos (by simp [delivered]), List.flatMap_cons, List.flatMap_cons, ih]

/-- The synchronous path merges the hits of the workers in time. -/
theorem collectSync_hits (schedule : Schedule F) (deadline : Option Nat)
    (workers : List (Worker F)) : (collectSync schedule deadline workers).hits.Perm
      ((workers.filter (Worker.inTime deadline)).flatMap Worker.hits) := by
  have moved : (schedule.deliver (Worker.sent workers)).Perm
      ((workers.filter (fun w => w.batch.isSome)).map (fun w => (w.finish, w.hits))) :=
    (schedule.permutes _).trans (.of_eq (sent_delivered workers))
  have room : (schedule.deliver (Worker.sent workers)).length ≤ workers.length := by
    rw [moved.length_eq, List.length_map]
    exact List.length_filter_le _ _
  have received := recvLoop_eq deadline (schedule.ordered (Worker.sent workers))
    (fun _ _ => Nat.zero_le _) room
  have same : sentInTime deadline ∘ (fun w : Worker F => (w.finish, w.hits)) =
      Worker.inTime deadline := rfl
  have parts := (moved.filter (sentInTime deadline)).flatMap_right Prod.snd
  rw [List.filter_map, same, List.flatMap_map, List.filter_filter] at parts
  rw [collectSync, received, ← flatMap_delivered (workers.filter _), List.filter_filter]
  simp only [Bool.and_comm] at parts ⊢
  exact parts

/-- The synchronous path keeps its promise. -/
theorem collectSync_reports (schedule : Schedule F) (deadline : Option Nat)
    {workers : List (Worker F)} (deliver : ∀ w ∈ workers, w.batch.isSome) :
    Reports deadline workers (gather collectSync schedule deadline workers) := by
  refine (reports_gather_iff ..).mpr ⟨?_, collectSync_hits schedule deadline workers⟩
  have moved : (schedule.deliver (Worker.sent workers)).Perm
      (workers.map (fun w => (w.finish, w.hits))) :=
    (schedule.permutes _).trans (sent_eq deliver ▸ List.Perm.refl _)
  have room : (schedule.deliver (Worker.sent workers)).length ≤ workers.length := by
    rw [moved.length_eq, List.length_map]
  have same : sentInTime deadline ∘ (fun w : Worker F => (w.finish, w.hits)) =
      Worker.inTime deadline := rfl
  rw [collectSync, recvLoop_eq deadline (schedule.ordered (Worker.sent workers))
    (fun _ _ => Nat.zero_le _) room]
  show List.countP _ _ = _
  rw [moved.countP_eq, List.countP_map, same]

/-! ## The asynchronous path -/

/-- The gathering loop merges the workers before the first late one. -/
theorem awaitLoop_eq (deadline : Option Nat) {workers : List (Worker F)}
    (deliver : ∀ w ∈ workers, w.batch.isSome) :
    awaitLoop deadline workers =
      ⟨(workers.takeWhile (Worker.inTime deadline)).length,
        (workers.takeWhile (Worker.inTime deadline)).flatMap Worker.hits⟩ := by
  induction workers with
  | nil => rfl
  | cons w workers ih =>
    obtain ⟨batch, delivered⟩ := Option.isSome_iff_exists.mp (deliver w List.mem_cons_self)
    have check : deadline.all (fun d => decide (w.finish < d)) = w.inTime deadline := rfl
    rw [awaitLoop, check]
    by_cases inTime : w.inTime deadline = true
    · rw [if_pos inTime, List.takeWhile_cons_of_pos inTime,
        ih (fun w member => deliver w (List.mem_cons_of_mem _ member)), delivered,
        List.flatMap_cons, Worker.hits, delivered]
      rfl
    · rw [if_neg inTime, List.takeWhile_cons_of_neg inTime]
      rfl

/-- The asynchronous path merges the hits of the workers before the first late one. -/
theorem collectAsync_hits (schedule : Schedule F) (deadline : Option Nat)
    (workers : List (Worker F)) : (collectAsync schedule deadline workers).hits =
      (workers.takeWhile (Worker.inTime deadline)).flatMap Worker.hits := by
  rw [collectAsync]
  induction workers with
  | nil => rfl
  | cons w workers ih =>
    have check : deadline.all (fun d => decide (w.finish < d)) = w.inTime deadline := rfl
    rw [awaitLoop, check]
    by_cases inTime : w.inTime deadline = true
    · rw [if_pos inTime, List.takeWhile_cons_of_pos inTime, List.flatMap_cons, ← ih]
      cases delivered : w.batch with
      | none => simp [Worker.hits, delivered]
      | some batch => simp [Worker.hits, delivered]
    · rw [if_neg inTime, List.takeWhile_cons_of_neg inTime]
      rfl

/-- The asynchronous path keeps its promise if and only if the workers in time come first in
the allocation. -/
theorem collectAsync_reports_iff (schedule : Schedule F) (deadline : Option Nat)
    {workers : List (Worker F)} (deliver : ∀ w ∈ workers, w.batch.isSome) :
    Reports deadline workers (gather collectAsync schedule deadline workers) ↔
      workers.HeldFirst (Worker.inTime deadline) := by
  rw [reports_gather_iff, collectAsync, awaitLoop_eq deadline deliver]
  constructor
  · rintro ⟨counted, _⟩
    rw [List.countP_eq_length_filter] at counted
    exact (List.length_takeWhile_eq_iff _ _).mp counted
  · intro first
    rw [(List.takeWhile_eq_filter_iff _ _).mpr first, List.countP_eq_length_filter]
    exact ⟨rfl, List.Perm.refl _⟩

/-- The two paths agree with what they promise at a deadline if and only if no worker that
finishes before it stands behind one that does not. -/
theorem fanOut_agrees_iff (schedule : Schedule F) (deadline : Option Nat)
    (workers : List (Worker F)) (deliver : ∀ w ∈ workers, w.batch.isSome) :
    (Reports deadline workers (gather collectSync schedule deadline workers) ∧
        Reports deadline workers (gather collectAsync schedule deadline workers)) ↔
      workers.Pairwise (fun a b => b.inTime deadline → a.inTime deadline) := by
  rw [collectAsync_reports_iff schedule deadline deliver]
  exact and_iff_right (collectSync_reports schedule deadline deliver)

/-! ## A slow first peer -/

/-- The channel that delivers by time of completion. -/
def Schedule.byFinish (finish : Nat → Nat) : Schedule F where
  finish := finish
  deliver sent := sent.mergeSort (fun a b => a.1 ≤ b.1)
  permutes sent := List.mergeSort_perm sent _
  ordered sent := by
    have sorted : (sent.mergeSort (fun a b => a.1 ≤ b.1)).Pairwise
        (fun a b => decide (a.1 ≤ b.1) = true) := List.pairwise_mergeSort
      (fun a b c first next => by simp only [decide_eq_true_eq] at *; omega)
      (fun a b => by simp only [Bool.or_eq_true, decide_eq_true_eq]; omega) sent
    exact sorted.imp (fun {a b} below => of_decide_eq_true below)

/-- A hit of a peer. -/
def sampleHit (id : UInt64) (similarity : Float32) : MembraneHit Float32 :=
  { recordId := id
    similarity
    origin := .remote ⟨Vector.replicate 16 1⟩
    payload := []
    embedding := none }

/-- Two workers: the first finishes at time 100, the second with one hit at the given time. -/
def sampleWorkers (finish : Nat) : List (Worker Float32) :=
  [⟨100, some []⟩, ⟨finish, some [sampleHit 7 0.5]⟩]

/-- At deadline 50 the asynchronous path has merged nothing, though the second peer finished at
time 10. -/
theorem slow_first_peer_hides_others :
    ¬ ∀ (schedule : Schedule Float32) (deadline : Option Nat) (workers : List (Worker Float32)),
      (∀ w ∈ workers, w.batch.isSome) → (∀ d ∈ deadline, ∀ w ∈ workers, w.finish ≠ d) →
        Reports deadline workers (gather collectSync schedule deadline workers) ∧
          Reports deadline workers (gather collectAsync schedule deadline workers) := by
  intro claim
  have both := claim (Schedule.byFinish id) (some 50) (sampleWorkers 10) (by decide) (by decide)
  have counted : (gather collectAsync (Schedule.byFinish id) (some 50)
    (sampleWorkers 10)).stats.peersCompleted = 0 := by decide
  have inTime : (sampleWorkers 10).countP (Worker.inTime (some 50)) = 1 := by decide
  exact absurd (both.2.completed.symm.trans counted) (by rw [inTime]; decide)

/-- With the peer in time in front of the late one, the paths agree, and merge its batch. -/
theorem fanOut_agrees_sample :
    (Reports (some 50) (sampleWorkers 10).reverse
        (gather collectSync (Schedule.byFinish id) (some 50) (sampleWorkers 10).reverse) ∧
      Reports (some 50) (sampleWorkers 10).reverse
        (gather collectAsync (Schedule.byFinish id) (some 50) (sampleWorkers 10).reverse)) ∧
    (gather collectAsync (Schedule.byFinish id) (some 50)
      (sampleWorkers 10).reverse).hits.map MembraneHit.recordId = [7] := by
  refine ⟨(fanOut_agrees_iff (Schedule.byFinish id) (some 50) (sampleWorkers 10).reverse
    (by decide)).mpr ?_, by decide⟩
  simp [sampleWorkers, Worker.inTime]

end Hansa
