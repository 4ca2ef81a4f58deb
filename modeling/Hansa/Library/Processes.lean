import Hansa.Library.Program
import Hansa.Library.Transition
import Mathlib.Data.List.InsertIdx

/-!
# Processes over a shared state

Commands are started as processes, which perform the operations of their programs in any order
between each other and may be stopped anywhere. When a command starts only where no other
process is left, each command runs alone, so what its program keeps from a state in which it
may start is an invariant of the whole run. The same holds when commands overlap, if a command
changes the state only while it is up to date: it started where it may, and no other command
changed the state since.
-/

/-- Processes with the rest of their programs, and the state they share. -/
structure Processes (Op : Type) (Answer : Op → Type) (ε σ : Type) where
  /-- What is left of each running process. -/
  running : List (Program Op Answer ε Unit)
  /-- The shared state. -/
  state : σ

/-- One step of the processes. -/
inductive ProcessStep (ι : Type) where
  /-- A command is started. -/
  | start (command : ι)
  /-- A process performs its next operation. -/
  | perform (process : Nat)
  /-- A process ends or is stopped. -/
  | stop (process : Nat)

namespace Processes

variable {Op : Type} {Answer : Op → Type} {ε σ ι : Type}

/-- A state without processes. -/
def idle (s : σ) : Processes Op Answer ε σ := ⟨[], s⟩

/-- The steps of processes that run the code of commands. -/
inductive Step (performs : (op : Op) → σ → Answer op → σ → Prop)
    (code : ι → Program Op Answer ε Unit) :
    Processes Op Answer ε σ → ProcessStep ι → Processes Op Answer ε σ → Prop where
  /-- A command is started. -/
  | start (s : Processes Op Answer ε σ) (command : ι) :
    Step performs code s (.start command) ⟨s.running ++ [code command], s.state⟩
  /-- An operation is performed, and its process goes on with the answer. -/
  | perform (s : Processes Op Answer ε σ) (process : Nat) (op : Op)
      (next : Answer op → Program Op Answer ε Unit) (answer : Answer op) (t : σ)
      (found : s.running[process]? = some (.perform op next))
      (done : performs op s.state answer t) :
    Step performs code s (.perform process) ⟨s.running.set process (next answer), t⟩
  /-- A process is left where it is. -/
  | stop (s : Processes Op Answer ε σ) (process : Nat) :
    Step performs code s (.stop process) ⟨s.running.eraseIdx process, s.state⟩

variable {performs : (op : Op) → σ → Answer op → σ → Prop} {code : ι → Program Op Answer ε Unit}

/-- Steps that start a command only where no process is left, and where it may start. -/
structure AloneStep (performs : (op : Op) → σ → Answer op → σ → Prop)
    (code : ι → Program Op Answer ε Unit) (mayStart : σ → ι → Prop)
    (s : Processes Op Answer ε σ) (label : ProcessStep ι) (t : Processes Op Answer ε σ) :
    Prop where
  /-- It is a step. -/
  step : Step performs code s label t
  /-- A command starts alone, where it may. -/
  alone : ∀ command, label = .start command → s.running = [] ∧ mayStart s.state command

/-- At most one process is left, and it is safe. -/
structure Alone (performs : (op : Op) → σ → Answer op → σ → Prop) (holds : σ → Prop)
    (s : Processes Op Answer ε σ) : Prop where
  /-- The property holds. -/
  here : holds s.state
  /-- There is at most one process. -/
  single : s.running.length ≤ 1
  /-- What is left of it is safe. -/
  safe : ∀ p ∈ s.running, p.Safe performs holds (fun _ _ => True) s.state

/-- Commands that are safe where they may start keep a single safe process. -/
theorem Alone.step {holds : σ → Prop} {mayStart : σ → ι → Prop}
    {s t : Processes Op Answer ε σ} {label : ProcessStep ι} (alone : Alone performs holds s)
    (safe : ∀ u command, holds u → mayStart u command →
      (code command).Safe performs holds (fun _ _ => True) u)
    (step : AloneStep performs code mayStart s label t) : Alone performs holds t := by
  obtain ⟨taken, starts⟩ := step
  cases taken with
  | start command =>
    obtain ⟨none_, may⟩ := starts command rfl
    refine ⟨alone.here, ?_, fun p member => ?_⟩
    · simp [none_]
    · rw [none_] at member
      obtain rfl := List.mem_singleton.mp member
      exact safe _ _ alone.here may
  | perform process op next answer u found done =>
    -- The process that performs is the only one, so no other depends on the state.
    obtain ⟨p, only⟩ : ∃ p, s.running = [p] := by
      have filled : s.running.length ≠ 0 := by
        intro none_
        rw [List.eq_nil_of_length_eq_zero none_] at found
        cases found
      exact List.length_eq_one_iff.mp (by have := alone.single; omega)
    obtain ⟨rfl, rfl⟩ : process = 0 ∧ p = .perform op next := by
      rw [only] at found
      cases process with
      | zero => exact ⟨rfl, Option.some.inj found⟩
      | succ n => cases found
    have before := alone.safe (.perform op next) (only ▸ List.mem_singleton_self _)
    have after : (next answer).Safe performs holds (fun _ _ => True) u := before.next done
    refine ⟨after.here, ?_, fun p member => ?_⟩
    · simp [only]
    · rw [only] at member
      obtain rfl := List.mem_singleton.mp member
      exact after
  | stop process =>
    refine ⟨alone.here, ?_, fun p member => ?_⟩
    · exact Nat.le_trans (List.length_eraseIdx_le _ _) alone.single
    · exact alone.safe p (List.mem_of_mem_eraseIdx member)

/-- What all commands keep, where they may start, holds in every state of a run in which they
start alone. -/
theorem holds_of_alone {holds : σ → Prop} {mayStart : σ → ι → Prop} {s : σ}
    {labels : List (ProcessStep ι)} {last : Processes Op Answer ε σ} (begins : holds s)
    (safe : ∀ u command, holds u → mayStart u command →
      (code command).Safe performs holds (fun _ _ => True) u)
    (run : Run (AloneStep performs code mayStart) (idle s) labels last) : holds last.state :=
  (run.invariant (Alone performs holds)
    ⟨begins, Nat.zero_le 1, fun _ none_ => nomatch none_⟩
    fun _ _ _ alone step => alone.step safe step).here

/-- A process performs operations, wherever the others are. -/
theorem run_process {p n : Nat} {part rest : Program Op Answer ε Unit}
    {s : Processes Op Answer ε σ} {t : σ} (found : s.running[p]? = some part)
    (reaches : part.Reaches performs n s.state rest t) :
    Run (Step performs code) s (List.replicate n (.perform p)) ⟨s.running.set p rest, t⟩ := by
  obtain ⟨running, state⟩ := s
  simp only at found reaches ⊢
  induction reaches generalizing running with
  | here part state =>
    obtain ⟨inside, same⟩ := List.getElem?_eq_some_iff.mp found
    rw [← same, List.set_getElem_self]
    exact .nil
  | @next op next answer n rest state mid t done later ih =>
    have inside := (List.getElem?_eq_some_iff.mp found).1
    have one : Step performs code ⟨running, state⟩ (.perform p)
        ⟨running.set p (next answer), mid⟩ :=
      .perform ⟨running, state⟩ p op next answer mid found done
    have more := ih (running.set p (next answer)) (List.getElem?_set_self inside)
    rw [List.set_set] at more
    exact (Run.nil.concat one).append more

/-- A single process performs operations. -/
theorem run_performs {mayStart : σ → ι → Prop} {n : Nat} {p q : Program Op Answer ε Unit} {s t : σ}
    (reaches : p.Reaches performs n s q t) :
    Run (AloneStep performs code mayStart) ⟨[p], s⟩ (List.replicate n (.perform 0)) ⟨[q], t⟩ := by
  induction reaches with
  | here p s => exact .nil
  | @next op next answer n p s t u done later ih =>
    have one : AloneStep performs code mayStart ⟨[.perform op next], s⟩ (.perform 0)
        ⟨[next answer], t⟩ :=
      ⟨.perform ⟨[.perform op next], s⟩ 0 op next answer t rfl done, fun _ same => nomatch same⟩
    exact (Run.nil.concat one).append ih

/-- A command that may start runs alone and is left somewhere. -/
theorem run_alone {mayStart : σ → ι → Prop} {command : ι} {n : Nat}
    {q : Program Op Answer ε Unit} {s t : σ} (may : mayStart s command)
    (reaches : (code command).Reaches performs n s q t) :
    Run (AloneStep performs code mayStart) (idle s)
      (.start command :: (List.replicate n (.perform 0) ++ [.stop 0])) (idle t) := by
  have start : AloneStep performs code mayStart (idle s) (.start command)
      ⟨[code command], s⟩ := by
    refine ⟨.start (idle s) command, fun command' same => ?_⟩
    obtain rfl := ProcessStep.start.inj same
    exact ⟨rfl, may⟩
  have stop : AloneStep performs code mayStart ⟨[q], t⟩ (.stop 0) (idle t) :=
    ⟨.stop ⟨[q], t⟩ 0, fun _ same => nomatch same⟩
  exact (Run.nil.concat start).append ((run_performs reaches).concat stop)

/-! ## Processes that trust their answers -/

/-- The property holds, and what is left of every process trusts its answers. -/
structure Trusting (expected : (op : Op) → Answer op → Prop) (allowed : Op → Prop)
    (holds : σ → Prop) (s : Processes Op Answer ε σ) : Prop where
  /-- The property holds. -/
  here : holds s.state
  /-- The processes perform allowed operations alone if they are answered as expected. -/
  trusts : ∀ p ∈ s.running, p.Trusts expected allowed (fun _ => True)

/-- If allowed operations keep a property and are answered as expected where it holds, each step
of processes that trust their answers keeps it. -/
theorem Trusting.step {holds : σ → Prop} {expected : (op : Op) → Answer op → Prop}
    {allowed : Op → Prop} {s t : Processes Op Answer ε σ} {label : ProcessStep ι}
    (trusting : Trusting expected allowed holds s)
    (codes : ∀ command, (code command).Trusts expected allowed (fun _ => True))
    (answers : ∀ u op answer v, holds u → performs op u answer v → expected op answer)
    (keeps : ∀ u op answer v, allowed op → holds u → performs op u answer v → holds v)
    (step : Step performs code s label t) : Trusting expected allowed holds t := by
  obtain ⟨here, trusts⟩ := trusting
  cases step with
  | start command =>
    refine ⟨here, fun p member => ?_⟩
    rcases List.mem_append.mp member with old | new
    · exact trusts p old
    · rw [List.mem_singleton.mp new]
      exact codes command
  | perform process op next answer u found done =>
    have before := trusts _ (List.mem_of_getElem? found)
    refine ⟨keeps _ op answer u before.first here done, fun p member => ?_⟩
    rcases List.mem_or_eq_of_mem_set member with old | rfl
    · exact trusts p old
    · exact before.next (answers _ op answer u here done)
  | stop process => exact ⟨here, fun p member => trusts p (List.mem_of_mem_eraseIdx member)⟩

/-- A property that allowed operations keep, and under which they are answered as expected, holds
in every state of every run of processes that trust their answers. -/
theorem holds_of_trusts {holds : σ → Prop} {expected : (op : Op) → Answer op → Prop}
    {allowed : Op → Prop} {s : σ} {labels : List (ProcessStep ι)}
    {last : Processes Op Answer ε σ} (begins : holds s)
    (codes : ∀ command, (code command).Trusts expected allowed (fun _ => True))
    (answers : ∀ u op answer v, holds u → performs op u answer v → expected op answer)
    (keeps : ∀ u op answer v, allowed op → holds u → performs op u answer v → holds v)
    (run : Run (Step performs code) (idle s) labels last) : holds last.state :=
  (run.invariant (Trusting expected allowed holds) ⟨begins, fun _ none_ => nomatch none_⟩
    fun _ _ _ trusting step => trusting.step codes answers keeps step).here

/-! ## Processes that may be out of date -/

/-- Processes with the rest of their programs and whether they are up to date: the command was
started where it may start, and no other process changed the shared state since. -/
structure Tracked (Op : Type) (Answer : Op → Type) (ε σ : Type) where
  /-- What is left of each running process, and whether it is up to date. -/
  running : List (Program Op Answer ε Unit × Bool)
  /-- The shared state. -/
  state : σ

/-- The processes, without what is known about them. -/
def Tracked.processes (s : Tracked Op Answer ε σ) : Processes Op Answer ε σ :=
  ⟨s.running.map Prod.fst, s.state⟩

/-- A state without processes. -/
def Tracked.idle (s : σ) : Tracked Op Answer ε σ := ⟨[], s⟩

/-- Steps in which only a process that is up to date changes the shared state. A command counts
as started when it performs its first operation. -/
inductive CurrentStep (performs : (op : Op) → σ → Answer op → σ → Prop)
    (code : ι → Program Op Answer ε Unit) (mayStart : σ → ι → Prop) :
    Tracked Op Answer ε σ → ProcessStep ι → Tracked Op Answer ε σ → Prop where
  /-- A command is started, up to date only if it may start. -/
  | start (s : Tracked Op Answer ε σ) (command : ι) (current : Bool)
      (may : current = true → mayStart s.state command) :
    CurrentStep performs code mayStart s (.start command)
      ⟨s.running ++ [(code command, current)], s.state⟩
  /-- A process performs an operation that leaves the state. -/
  | look (s : Tracked Op Answer ε σ) (process : Nat) (current : Bool) (op : Op)
      (next : Answer op → Program Op Answer ε Unit) (answer : Answer op)
      (found : s.running[process]? = some (.perform op next, current))
      (done : performs op s.state answer s.state) :
    CurrentStep performs code mayStart s (.perform process)
      ⟨s.running.set process (next answer, current), s.state⟩
  /-- A process that is up to date performs an operation; the others are out of date then. -/
  | change (s : Tracked Op Answer ε σ) (process : Nat) (op : Op)
      (next : Answer op → Program Op Answer ε Unit) (answer : Answer op) (t : σ)
      (found : s.running[process]? = some (.perform op next, true))
      (done : performs op s.state answer t) :
    CurrentStep performs code mayStart s (.perform process)
      ⟨(s.running.map fun p => (p.1, false)).set process (next answer, true), t⟩
  /-- A process is left where it is. -/
  | stop (s : Tracked Op Answer ε σ) (process : Nat) :
    CurrentStep performs code mayStart s (.stop process) ⟨s.running.eraseIdx process, s.state⟩

/-- These steps are steps of the processes. -/
theorem CurrentStep.step {mayStart : σ → ι → Prop} {s t : Tracked Op Answer ε σ}
    {label : ProcessStep ι} (taken : CurrentStep performs code mayStart s label t) :
    Step performs code s.processes label t.processes := by
  have inside : ∀ {process : Nat} {p : Program Op Answer ε Unit} {current : Bool},
      s.running[process]? = some (p, current) → s.processes.running[process]? = some p := by
    intro process p current found
    rw [Tracked.processes, List.getElem?_map, found]
    rfl
  cases taken with
  | start command current may =>
    show Step performs code s.processes _ ⟨(s.running ++ [(code command, current)]).map _, _⟩
    rw [List.map_append]
    exact .start s.processes command
  | look process current op next answer found done =>
    show Step performs code s.processes _ ⟨(s.running.set process (next answer, current)).map _, _⟩
    rw [List.map_set]
    exact .perform s.processes process op next answer s.state (inside found) done
  | change process op next answer u found done =>
    show Step performs code s.processes _
      ⟨((s.running.map fun p => (p.1, false)).set process (next answer, true)).map _, _⟩
    rw [List.map_set, List.map_map]
    exact .perform s.processes process op next answer u (inside found) done
  | stop process =>
    show Step performs code s.processes _ ⟨(s.running.eraseIdx process).map _, _⟩
    rw [← List.eraseIdx_map]
    exact .stop s.processes process

/-- The property holds, and what is left of the processes that are up to date is safe. -/
structure Current (performs : (op : Op) → σ → Answer op → σ → Prop) (holds : σ → Prop)
    (s : Tracked Op Answer ε σ) : Prop where
  /-- The property holds. -/
  here : holds s.state
  /-- What is left of a process that is up to date is safe. -/
  safe : ∀ p, (p, true) ∈ s.running → p.Safe performs holds (fun _ _ => True) s.state

/-- Commands that are safe where they may start keep the processes safe that are up to date. -/
theorem Current.step {holds : σ → Prop} {mayStart : σ → ι → Prop}
    {s t : Tracked Op Answer ε σ} {label : ProcessStep ι} (current : Current performs holds s)
    (safe : ∀ u command, holds u → mayStart u command →
      (code command).Safe performs holds (fun _ _ => True) u)
    (step : CurrentStep performs code mayStart s label t) : Current performs holds t := by
  cases step with
  | start command upToDate may =>
    refine ⟨current.here, fun p member => ?_⟩
    rcases List.mem_append.mp member with old | new
    · exact current.safe p old
    · obtain ⟨rfl, rfl⟩ := Prod.mk.inj (List.mem_singleton.mp new)
      exact safe _ _ current.here (may rfl)
  | look process upToDate op next answer found done =>
    refine ⟨current.here, fun p member => ?_⟩
    rcases List.mem_or_eq_of_mem_set member with old | new
    · exact current.safe p old
    · obtain ⟨rfl, rfl⟩ := Prod.mk.inj new
      exact (current.safe _ (List.mem_of_getElem? found)).next done
  | change process op next answer u found done =>
    -- Only the process that changed the state is still up to date.
    have after := (current.safe _ (List.mem_of_getElem? found)).next done
    refine ⟨after.here, fun p member => ?_⟩
    rcases List.mem_or_eq_of_mem_set member with old | new
    · obtain ⟨_, -, same⟩ := List.mem_map.mp old
      cases (Prod.mk.inj same).2
    · obtain ⟨rfl, -⟩ := Prod.mk.inj new
      exact after
  | stop process =>
    exact ⟨current.here, fun p member => current.safe p (List.mem_of_mem_eraseIdx member)⟩

/-- What all commands keep, where they may start, holds in every state of a run in which only
processes that are up to date change the state. -/
theorem holds_of_current {holds : σ → Prop} {mayStart : σ → ι → Prop} {s : σ}
    {labels : List (ProcessStep ι)} {last : Tracked Op Answer ε σ} (begins : holds s)
    (safe : ∀ u command, holds u → mayStart u command →
      (code command).Safe performs holds (fun _ _ => True) u)
    (run : Run (CurrentStep performs code mayStart) (Tracked.idle s) labels last) :
    holds last.state :=
  (run.invariant (Current performs holds) ⟨begins, fun _ none_ => nomatch none_⟩
    fun _ _ _ current step => current.step safe step).here

/-- A single process stays up to date. -/
theorem run_changes {mayStart : σ → ι → Prop} {n : Nat} {p q : Program Op Answer ε Unit} {s t : σ}
    (reaches : p.Reaches performs n s q t) : Run (CurrentStep performs code mayStart)
      ⟨[(p, true)], s⟩ (List.replicate n (.perform 0)) ⟨[(q, true)], t⟩ := by
  induction reaches with
  | here p s => exact .nil
  | @next op next answer n p s t u done later ih =>
    have one : CurrentStep performs code mayStart ⟨[(.perform op next, true)], s⟩ (.perform 0)
        ⟨[(next answer, true)], t⟩ :=
      .change ⟨[(.perform op next, true)], s⟩ 0 op next answer t rfl done
    exact (Run.nil.concat one).append ih

/-- A command that may start runs up to date. -/
theorem run_current {mayStart : σ → ι → Prop} {command : ι} {n : Nat}
    {q : Program Op Answer ε Unit} {s t : σ} (may : mayStart s command)
    (reaches : (code command).Reaches performs n s q t) :
    Run (CurrentStep performs code mayStart) (Tracked.idle s)
      (.start command :: List.replicate n (.perform 0)) ⟨[(q, true)], t⟩ := by
  have start : CurrentStep performs code mayStart (Tracked.idle s) (.start command)
      ⟨[(code command, true)], s⟩ := .start (Tracked.idle s) command true fun _ => may
  exact (Run.nil.concat start).append (run_changes reaches)

end Processes
