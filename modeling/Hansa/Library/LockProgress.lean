import Hansa.Library.CriticalSections

/-!
# What processes around a lock can do

A process performs operations of its program wherever the others stand, takes the lock while it
is free, runs its section while others look on, and gives the lock back. These are the parts of
which runs of given interleavings are put together; what processes have seen plays no role.
-/

namespace LockedProcesses

open Program

variable {Op : Type} {Answer : Op → Type} {Refusal ε α β σ ι : Type}

/-- Where processes stand: what each of them runs and what is left of it, who has the lock, who
took it, and the state. -/
structure Standing (Op : Type) (Answer : Op → Type) (Refusal ε α σ ι : Type) where
  /-- The command of each process, and the rest of its program. -/
  left : List (ι × Option (LockProgram Op Answer Refusal ε α))
  /-- The process that has the lock. -/
  holder : Option Nat
  /-- Who took the lock, in order. -/
  entered : List (Nat × ι)
  /-- The state that the lock protects. -/
  state : σ

/-- Where processes stand, whatever they have seen. -/
def standing (s : LockedProcesses Op Answer Refusal ε α σ ι) :
    Standing Op Answer Refusal ε α σ ι :=
  ⟨s.processes.map fun q => (q.command, q.rest), s.holder, s.entered, s.state⟩

/-- No process was started. -/
@[simp] theorem standing_idle (s : σ) :
    (idle s : LockedProcesses Op Answer Refusal ε α σ ι).standing = ⟨[], none, [], s⟩ := rfl

/-- A process that stands somewhere. -/
theorem exists_of_standing {s : LockedProcesses Op Answer Refusal ε α σ ι} {p : Nat} {i : ι}
    {rest : Option (LockProgram Op Answer Refusal ε α)}
    (found : s.standing.left[p]? = some (i, rest)) :
    ∃ q, s.processes[p]? = some q ∧ q.command = i ∧ q.rest = rest := by
  rw [standing, List.getElem?_map] at found
  obtain ⟨q, isProcess, same⟩ := Option.map_eq_some_iff.mp found
  obtain ⟨rfl, rfl⟩ := Prod.mk.inj same
  exact ⟨q, isProcess, rfl, rfl⟩

/-- From wherever processes stand so, a run with these labels leads to where they stand then. -/
def Leads (performs : (op : Op) → σ → Answer op → σ → Prop) (mayStop : σ → Prop)
    (code : ι → LockProgram Op Answer Refusal ε α) (v : Standing Op Answer Refusal ε α σ ι)
    (labels : List (ProcessStep ι)) (w : Standing Op Answer Refusal ε α σ ι) : Prop :=
  ∀ s : LockedProcesses Op Answer Refusal ε α σ ι, s.standing = v →
    ∃ t, Run (Step performs mayStop code) s labels t ∧ t.standing = w

variable {performs : (op : Op) → σ → Answer op → σ → Prop} {mayStop : σ → Prop}
  {code : ι → LockProgram Op Answer Refusal ε α} {u v w : Standing Op Answer Refusal ε α σ ι}
  {labels more : List (ProcessStep ι)} {p n : Nat} {i : ι} {t : σ}

/-- Where processes stand, a run of no steps leads. -/
theorem Leads.refl (v : Standing Op Answer Refusal ε α σ ι) :
    Leads performs mayStop code v [] v :=
  fun s same => ⟨s, .nil, same⟩

/-- One run after another. -/
theorem Leads.trans (first : Leads performs mayStop code u labels v)
    (later : Leads performs mayStop code v more w) :
    Leads performs mayStop code u (labels ++ more) w := by
  intro s same
  obtain ⟨mid, run, same'⟩ := first s same
  obtain ⟨t, run', same''⟩ := later mid same'
  exact ⟨t, run.append run', same''⟩

/-- One step of a process. -/
theorem leads_step {label : ProcessStep ι}
    (step : ∀ s : LockedProcesses Op Answer Refusal ε α σ ι, s.standing = v →
      ∃ t, Step performs mayStop code s label t ∧ t.standing = w) :
    Leads performs mayStop code v [label] w := by
  intro s same
  obtain ⟨t, next, same'⟩ := step s same
  exact ⟨t, Run.nil.concat next, same'⟩

/-- A command is started. -/
theorem leads_start (v : Standing Op Answer Refusal ε α σ ι) (i : ι) :
    Leads performs mayStop code v [.start i]
      { v with left := v.left ++ [(i, some (code i))] } := by
  refine leads_step fun s same => ⟨_, .start s i, ?_⟩
  subst same
  simp [standing]

/-- Commands are started, one after the other. -/
theorem leads_starts (v : Standing Op Answer Refusal ε α σ ι) (commands : List ι) :
    Leads performs mayStop code v (commands.map .start)
      { v with left := v.left ++ commands.map fun i => (i, some (code i)) } := by
  induction commands generalizing v with
  | nil =>
    rw [List.map_nil, List.map_nil, List.append_nil]
    exact .refl v
  | cons i commands ih =>
    have later := ih { v with left := v.left ++ [(i, some (code i))] }
    rw [List.append_assoc] at later
    exact (leads_start v i).trans later

/-- A process takes the free lock. -/
theorem leads_acquire {next : Except Refusal Unit → LockProgram Op Answer Refusal ε α}
    (found : v.left[p]? = some (i, some (.perform .acquire next))) (free : v.holder = none) :
    Leads performs mayStop code v [.perform p]
      { v with
        left := v.left.set p (i, some (next (.ok ())))
        holder := some p
        entered := v.entered ++ [(p, i)] } := by
  refine leads_step fun s same => ?_
  subst same
  obtain ⟨q, isProcess, rfl, waits⟩ := exists_of_standing found
  exact ⟨_, .take s p q next isProcess waits free, by simp [standing, List.map_set]⟩

/-- The process that has the lock gives it back. -/
theorem leads_release {next : Unit → LockProgram Op Answer Refusal ε α}
    (found : v.left[p]? = some (i, some (.perform .release next))) (holds : v.holder = some p) :
    Leads performs mayStop code v [.perform p]
      { v with left := v.left.set p (i, some (next ())), holder := none } := by
  refine leads_step fun s same => ?_
  subst same
  obtain ⟨q, isProcess, rfl, waits⟩ := exists_of_standing found
  have mine : s.holder = some p := holds
  exact ⟨_, .release s p q next isProcess waits, by simp [standing, List.map_set, mine]⟩

/-- A process performs an operation on the state. -/
theorem leads_act {op : Op} {next : Answer op → LockProgram Op Answer Refusal ε α}
    {answer : Answer op} (found : v.left[p]? = some (i, some (.perform (.act op) next)))
    (done : performs op v.state answer t) :
    Leads performs mayStop code v [.perform p]
      { v with left := v.left.set p (i, some (next answer)), state := t } := by
  refine leads_step fun s same => ?_
  subst same
  obtain ⟨q, isProcess, rfl, waits⟩ := exists_of_standing found
  by_cases moved : t = s.state
  · subst moved
    exact ⟨_, .look s p q op next answer isProcess waits done,
      by simp [standing, List.map_set, Process.saw]⟩
  · refine ⟨_, .change s p q op next answer t isProcess waits done moved, ?_⟩
    simp [standing, Process.saw, Function.comp_def, List.map_set]

/-- A process performs the operations of a part of its program, where the rest of the program is
put around the part. -/
theorem leads_part {part rest : Program Op Answer ε β}
    (around : Program Op Answer ε β → LockProgram Op Answer Refusal ε α)
    (passes : ∀ op next, around (.perform op next) =
      .perform (.act op) fun answer => around (next answer))
    (found : v.left[p]? = some (i, some (around part)))
    (reaches : part.Reaches performs n v.state rest t) :
    Leads performs mayStop code v (List.replicate n (.perform p))
      { v with left := v.left.set p (i, some (around rest)), state := t } := by
  obtain ⟨left, holder, entered, state⟩ := v
  simp only at found reaches ⊢
  induction reaches generalizing left with
  | here part state =>
    obtain ⟨inside, same⟩ := List.getElem?_eq_some_iff.mp found
    rw [← same, List.set_getElem_self]
    exact .refl _
  | next done _ ih =>
    rw [passes] at found
    have inside := (List.getElem?_eq_some_iff.mp found).1
    have later := ih (left.set p _) (List.getElem?_set_self inside)
    rw [List.set_set] at later
    exact (leads_act found done).trans later

/-- A process performs the operations of a part of its program without the lock. -/
theorem leads_unlocked {part rest : Program Op Answer ε β}
    {f : β → LockProgram Op Answer Refusal ε α}
    (found : v.left[p]? = some (i, some (part.unlocked >>= f)))
    (reaches : part.Reaches performs n v.state rest t) :
    Leads performs mayStop code v (List.replicate n (.perform p))
      { v with left := v.left.set p (i, some (rest.unlocked >>= f)), state := t } :=
  leads_part (fun part => part.unlocked >>= f) (fun _ _ => rfl) found reaches

/-- What is left of a process in its section. -/
def inSection (part : Program Op Answer ε β) (f : β → LockProgram Op Answer Refusal ε α) :
    LockProgram Op Answer Refusal ε α :=
  (part.unlocked.attempt >>= release) >>= f

/-- A process enters its section. -/
theorem leads_enter {refused : Refusal → ε} {body : Program Op Answer ε β}
    {f : β → LockProgram Op Answer Refusal ε α}
    (found : v.left[p]? = some (i, some (body.locked refused >>= f))) (free : v.holder = none) :
    Leads performs mayStop code v [.perform p]
      { v with
        left := v.left.set p (i, some (inSection body f))
        holder := some p
        entered := v.entered ++ [(p, i)] } :=
  leads_acquire found free

/-- A process runs its section to the end and gives the lock back. -/
theorem leads_leave {body : Program Op Answer ε β} {f : β → LockProgram Op Answer Refusal ε α}
    {value : β} (found : v.left[p]? = some (i, some (inSection body f)))
    (holds : v.holder = some p) (reaches : body.Reaches performs n v.state (.ret value) t) :
    Leads performs mayStop code v (List.replicate n (.perform p) ++ [.perform p])
      { v with left := v.left.set p (i, some (f value)), holder := none, state := t } := by
  have inside := (List.getElem?_eq_some_iff.mp found).1
  have runs : Leads performs mayStop code v (List.replicate n (.perform p))
      { v with left := v.left.set p (i, some (inSection (.ret value) f)), state := t } :=
    leads_part (fun part => inSection part f) (fun _ _ => rfl) found reaches
  have gives : Leads performs mayStop code
      { v with left := v.left.set p (i, some (inSection (.ret value) f)), state := t }
      [.perform p]
      { v with
        left := (v.left.set p (i, some (inSection (.ret value) f))).set p (i, some (f value))
        holder := none
        state := t } :=
    leads_release (v := ⟨_, _, _, _⟩) (List.getElem?_set_self inside) holds
  rw [List.set_set] at gives
  exact runs.trans gives

end LockedProcesses
