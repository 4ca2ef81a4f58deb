import Hansa.Library.Processes

/-!
# Critical sections

Processes share a state that one lock protects. A process changes the state only while it holds
the lock; without the lock it may look at the state at any time, also while another process is
in the middle of its section. A process that is stopped gives the lock back. Such processes are
reasoned about one program at a time: a program says what it relies on of the others, and a
section moves an abstract value by the effect of its command or leaves it. Then every run is
serial: the sections took effect in the order in which the lock was taken, those of finished
commands all of them, and at any moment the state is explained by the effects so far and by the
section that runs.
-/

/-- Operations on a shared state, and those of the lock that protects it. -/
inductive LockOp (Op : Type) where
  /-- Take the lock. -/
  | acquire
  /-- Give the lock back. -/
  | release
  /-- An operation on the state. -/
  | act (op : Op)

/-- The type of an operation's answer; taking the lock may be refused for a reason. -/
@[reducible] def LockOp.Answer {Op : Type} (Answer : Op → Type) (Refusal : Type) :
    LockOp Op → Type
  | acquire => Except Refusal Unit
  | release => Unit
  | act op => Answer op

/-- Programs with a lock. -/
abbrev LockProgram (Op : Type) (Answer : Op → Type) (Refusal ε α : Type) :=
  Program (LockOp Op) (LockOp.Answer Answer Refusal) ε α

namespace Program

variable {Op : Type} {Answer : Op → Type} {Refusal ε α β σ : Type}

/-- A program that does not use the lock. -/
def unlocked : Program Op Answer ε α → LockProgram Op Answer Refusal ε α
  | ret value => ret value
  | fail error => fail error
  | perform op next => perform (.act op) fun answer => (next answer).unlocked

/-- Give the lock back and end as a program ended. -/
def release (result : Except ε α) : LockProgram Op Answer Refusal ε α :=
  perform .release fun _ => ofExcept result

/-- Run a program under the lock, which is given back however the program ends. -/
def locked (refused : Refusal → ε) (body : Program Op Answer ε α) :
    LockProgram Op Answer Refusal ε α :=
  perform .acquire fun
    | .ok () => body.unlocked.attempt >>= release
    | .error reason => fail (refused reason)

/-- Sequences may be grouped in either way. -/
theorem bind_assoc {γ : Type} (p : Program Op Answer ε α) (f : α → Program Op Answer ε β)
    (g : β → Program Op Answer ε γ) : p >>= f >>= g = p >>= fun value => f value >>= g := by
  induction p with
  | ret value => rfl
  | fail error => rfl
  | perform op next ih => exact congrArg (perform op) (funext ih)

/-- What is made of the value of a section may be made in the section. -/
theorem locked_map (refused : Refusal → ε) (body : Program Op Answer ε α) (f : α → β) :
    (body.locked refused >>= fun value => ret (f value)) =
      (body >>= fun value => ret (f value)).locked refused := by
  refine congrArg (perform LockOp.acquire) (funext fun answer => ?_)
  cases answer with
  | error reason => rfl
  | ok _ =>
    show (body.unlocked.attempt >>= release) >>= (fun value => ret (f value)) =
      ((body >>= fun value => ret (f value)).unlocked.attempt >>= release :
        LockProgram Op Answer Refusal ε β)
    induction body with
    | ret value => rfl
    | fail error => rfl
    | perform op next ih => exact congrArg (perform (LockOp.act op)) (funext ih)

/-- A sequence behind a value that was computed. -/
@[simp] theorem ofExcept_ok_bind (value : α) (f : α → Program Op Answer ε β) :
    (ofExcept (.ok value) >>= f : Program Op Answer ε β) = f value := rfl

/-- A sequence behind an error that was computed. -/
@[simp] theorem ofExcept_error_bind (error : ε) (f : α → Program Op Answer ε β) :
    (ofExcept (.error error) >>= f : Program Op Answer ε β) = fail error := rfl

/-! ## Other processes in between -/

/-- Others moved the state on, one change that is relied on after the other. The second
component holds the states before, newest first. -/
inductive Later (rely : σ → σ → Prop) (s : σ) (past : List σ) : σ → List σ → Prop where
  /-- Nothing happened. -/
  | here : Later rely s past s past
  /-- One more change happened. -/
  | next {t u : σ} {more : List σ} (before : Later rely s past t more) (change : rely t u) :
      Later rely s past u (t :: more)

section Later

variable {rely : σ → σ → Prop} {s t u : σ} {past more most : List σ}

/-- What comes after a first change. -/
theorem Later.cons (change : rely s t) (later : Later rely t (s :: past) u most) :
    Later rely s past u most := by
  induction later with
  | here => exact .next .here change
  | next _ one ih => exact .next ih one

/-- Nothing that was seen is forgotten. -/
theorem Later.seen (later : Later rely s past t more) : ∀ v ∈ s :: past, v ∈ t :: more := by
  induction later with
  | here => exact fun _ member => member
  | next _ _ ih => exact fun v member => List.mem_cons_of_mem _ (ih v member)

/-- What is relied on of one change is relied on of all, where it composes. -/
theorem Later.invariant (holds : σ → Prop) (here : holds s)
    (kept : ∀ v w, holds v → rely v w → holds w) (later : Later rely s past t more) :
    holds t := by
  induction later with
  | here => exact here
  | next _ change ih => exact kept _ _ ih change

/-- Without others nothing happens. -/
theorem Later.alone (later : Later (fun _ _ => False) s past t more) : t = s ∧ more = past := by
  cases later with
  | here => exact ⟨rfl, rfl⟩
  | next _ change => exact change.elim

end Later

/-- Whatever others do that is relied on, each operation makes a change that is guaranteed, and
where the program ends an assertion holds of the state and of the states before. -/
def Guarantees (performs : (op : Op) → σ → Answer op → σ → Prop) (rely guar : σ → σ → Prop)
    (post : Except ε α → σ → List σ → Prop) : Program Op Answer ε α → σ → List σ → Prop
  | ret value, s, past => post (.ok value) s past
  | fail error, s, past => post (.error error) s past
  | perform op next, s, past => ∀ t more, Later rely s past t more →
      ∀ answer u, performs op t answer u →
        guar t u ∧ (next answer).Guarantees performs rely guar post u (t :: more)

section Guarantees

variable {performs : (op : Op) → σ → Answer op → σ → Prop} {rely guar : σ → σ → Prop}
  {p : Program Op Answer ε α} {s : σ} {past : List σ}

/-- A returned value meets the assertion. -/
theorem guarantees_ret {post : Except ε α → σ → List σ → Prop} {value : α}
    (ends : post (.ok value) s past) :
    (ret value : Program Op Answer ε α).Guarantees performs rely guar post s past := ends

/-- A failure meets the assertion. -/
theorem guarantees_fail {post : Except ε α → σ → List σ → Prop} {error : ε}
    (ends : post (.error error) s past) :
    (fail error : Program Op Answer ε α).Guarantees performs rely guar post s past := ends

/-- An operation makes a guaranteed change, and the rest goes on from there. -/
theorem guarantees_perform {post : Except ε α → σ → List σ → Prop} {op : Op}
    {next : Answer op → Program Op Answer ε α}
    (rest : ∀ t more, Later rely s past t more → ∀ answer u, performs op t answer u →
      guar t u ∧ (next answer).Guarantees performs rely guar post u (t :: more)) :
    (perform op next).Guarantees performs rely guar post s past := rest

/-- An operation of a program that runs alone. -/
theorem guarantees_alone {post : Except ε α → σ → List σ → Prop} {op : Op}
    {next : Answer op → Program Op Answer ε α}
    (rest : ∀ answer t, performs op s answer t →
      guar s t ∧ (next answer).Guarantees performs (fun _ _ => False) guar post t (s :: past)) :
    (perform op next).Guarantees performs (fun _ _ => False) guar post s past := by
  intro t more later answer u done
  obtain ⟨rfl, rfl⟩ := later.alone
  exact rest answer u done

/-- The assertion at the end may be weakened. -/
theorem Guarantees.mono {post post' : Except ε α → σ → List σ → Prop}
    (guarantees : p.Guarantees performs rely guar post s past)
    (weaker : ∀ result t more, post result t more → post' result t more) :
    p.Guarantees performs rely guar post' s past := by
  induction p generalizing s past with
  | ret value => exact weaker _ _ _ guarantees
  | fail error => exact weaker _ _ _ guarantees
  | perform op next ih =>
    intro t more later answer u done
    obtain ⟨change, rest⟩ := guarantees t more later answer u done
    exact ⟨change, ih answer rest⟩

/-- The guarantee may be weakened. -/
theorem Guarantees.weaken {guar' : σ → σ → Prop} {post : Except ε α → σ → List σ → Prop}
    (guarantees : p.Guarantees performs rely guar post s past)
    (weaker : ∀ t u, guar t u → guar' t u) : p.Guarantees performs rely guar' post s past := by
  induction p generalizing s past with
  | ret value => exact guarantees
  | fail error => exact guarantees
  | perform op next ih =>
    intro t more later answer u done
    obtain ⟨change, rest⟩ := guarantees t more later answer u done
    exact ⟨weaker t u change, ih answer rest⟩

/-- A sequence goes on where its first part ends. -/
theorem Guarantees.bind {post : Except ε β → σ → List σ → Prop}
    {f : α → Program Op Answer ε β}
    (guarantees : p.Guarantees performs rely guar (fun result t more => match result with
      | .ok value => (f value).Guarantees performs rely guar post t more
      | .error error => post (.error error) t more) s past) :
    (p >>= f).Guarantees performs rely guar post s past := by
  induction p generalizing s past with
  | ret value => exact guarantees
  | fail error => exact guarantees
  | perform op next ih =>
    intro t more later answer u done
    obtain ⟨change, rest⟩ := guarantees t more later answer u done
    exact ⟨change, ih answer rest⟩

/-- A sequence whose first part, where it returns, has met an assertion. -/
theorem Guarantees.andThen {mid : Except ε α → σ → List σ → Prop}
    {post : Except ε β → σ → List σ → Prop} {f : α → Program Op Answer ε β}
    (guarantees : p.Guarantees performs rely guar mid s past)
    (fails : ∀ error t more, mid (.error error) t more → post (.error error) t more)
    (rest : ∀ value t more, mid (.ok value) t more →
      (f value).Guarantees performs rely guar post t more) :
    (p >>= f).Guarantees performs rely guar post s past := by
  refine Guarantees.bind (guarantees.mono ?_)
  intro result t more here
  cases result with
  | ok value => exact rest value t more here
  | error error => exact fails error t more here

/-- Rewriting errors changes no state. -/
theorem Guarantees.mapError {f : ε → ε} {post : Except ε α → σ → List σ → Prop}
    (guarantees : p.Guarantees performs rely guar
      (fun result t more => post (result.mapError f) t more) s past) :
    (p.mapError f).Guarantees performs rely guar post s past := by
  induction p generalizing s past with
  | ret value => exact guarantees
  | fail error => exact guarantees
  | perform op next ih =>
    intro t more later answer u done
    obtain ⟨change, rest⟩ := guarantees t more later answer u done
    exact ⟨change, ih answer rest⟩

/-- A program that runs alone and returns has met the assertion. -/
theorem Guarantees.reaches {post : Except ε α → σ → List σ → Prop} {n : Nat} {value : α} {t : σ}
    (guarantees : p.Guarantees performs (fun _ _ => False) guar post s past)
    (returns : p.Reaches performs n s (ret value) t) : ∃ more, post (.ok value) t more := by
  generalize isEnd : ret value = q at returns
  induction returns generalizing past with
  | here p s =>
    subst isEnd
    exact ⟨past, guarantees⟩
  | next done _ ih => exact ih (guarantees _ _ .here _ _ done).2 isEnd

end Guarantees

end Program

/-! ## Programs that use the lock as they should -/

/-- What a lock protects, and what the commands do to it. -/
structure Guarded (Op : Type) (Answer : Op → Type) (ε α σ ι A : Type) where
  /-- What the operations answer and do. -/
  performs : (op : Op) → σ → Answer op → σ → Prop
  /-- What a change of the state does at most. -/
  rely : σ → σ → Prop
  /-- The state stands for an abstract value, while the lock is free. -/
  agrees : A → σ → Prop
  /-- The state while the section of a command runs that found an abstract value. -/
  during : ι → A → σ → Prop
  /-- What the section of a command does to the abstract value. -/
  effect : ι → A → A
  /-- How a command ends. -/
  ends : ι → Except ε α → σ → List σ → Prop

/-- Where a process is. -/
inductive Place (A : Type) where
  /-- Without the lock. It may have held it, and its section may have taken effect. -/
  | outside (entered done : Bool)
  /-- In its section, which found this value. -/
  | inside (value : A)

namespace Guarded

open Program

variable {Op : Type} {Answer : Op → Type} {Refusal ε α β σ ι A : Type}

/-- What is left of a command uses the lock as it should: outside its section it leaves the state
alone, it has one section at most, and the section has taken effect or left the abstract value
alone when it gives the lock back. A command that returns has taken effect, if it has one. -/
def Abides (g : Guarded Op Answer ε α σ ι A) (i : ι) :
    Place A → LockProgram Op Answer Refusal ε α → σ → List σ → Prop
  | .outside _ done, .ret value, s, past =>
    (done = true ∨ ∀ a, g.effect i a = a) ∧ g.ends i (.ok value) s past
  | .outside _ _, .fail error, s, past => g.ends i (.error error) s past
  | .outside entered done, .perform (.act op) next, s, past =>
    ∀ t more, Later g.rely s past t more → ∀ answer u, g.performs op t answer u →
      u = t ∧ g.Abides i (.outside entered done) (next answer) t (t :: more)
  | .outside entered done, .perform .acquire next, s, past =>
    entered = false ∧ ∀ t more, Later g.rely s past t more →
      (∀ a, g.agrees a t → g.Abides i (.inside a) (next (Except.ok ())) t more) ∧
      ∀ reason, g.Abides i (.outside entered done) (next (Except.error reason)) t more
  | .outside _ _, .perform .release _, _, _ => False
  | .inside _, .ret _, _, _ => False
  | .inside _, .fail _, _, _ => False
  | .inside a, .perform (.act op) next, s, past =>
    ∀ answer t, g.performs op s answer t → g.rely s t ∧ g.during i a t ∧
      g.Abides i (.inside a) (next answer) t (s :: past)
  | .inside _, .perform .acquire _, _, _ => False
  | .inside a, .perform .release next, s, past =>
    g.agrees a s ∧ g.Abides i (.outside true false) (next ()) s past ∨
      g.agrees (g.effect i a) s ∧ g.Abides i (.outside true true) (next ()) s past

variable {g : Guarded Op Answer ε α σ ι A} {i : ι} {s t : σ} {past more : List σ}

/-- What others do is already taken into account. -/
theorem Abides.later {entered done : Bool} {p : LockProgram Op Answer Refusal ε α}
    (stable : ∀ result s t past, g.ends i result s past → g.rely s t →
      g.ends i result t (s :: past))
    (abides : g.Abides i (.outside entered done) p s past) (change : g.rely s t) :
    g.Abides i (.outside entered done) p t (s :: past) := by
  match p, abides with
  | .ret value, ⟨effective, ends⟩ => exact ⟨effective, stable _ s t past ends change⟩
  | .fail error, ends => exact stable _ s t past ends change
  | .perform (.act op) next, rest => exact fun u most later => rest u most (later.cons change)
  | .perform .acquire next, ⟨first, rest⟩ =>
    exact ⟨first, fun u most later => rest u most (later.cons change)⟩

/-- A program that looks at the state without the lock, and what comes after it. -/
theorem abides_unlocked {entered done : Bool} {p : Program Op Answer ε β}
    {f : β → LockProgram Op Answer Refusal ε α}
    (looks : p.Guarantees g.performs g.rely (fun s t => t = s) (fun result t more =>
      match result with
      | .ok value => g.Abides i (.outside entered done) (f value) t more
      | .error error => g.ends i (.error error) t more) s past) :
    g.Abides i (.outside entered done) (p.unlocked >>= f) s past := by
  induction p generalizing s past with
  | ret value => exact looks
  | fail error => exact looks
  | perform op next ih =>
    intro t more later answer u performed
    obtain ⟨rfl, rest⟩ := looks t more later answer u performed
    exact ⟨rfl, ih answer rest⟩

/-- A section that runs alone, and gives the lock back. -/
theorem abides_inside {a : A} {p : Program Op Answer ε α}
    (runs : p.Guarantees g.performs (fun _ _ => False) (fun s t => g.rely s t ∧ g.during i a t)
      (fun result t more => g.ends i result t more ∧
        (g.agrees (g.effect i a) t ∨ g.agrees a t ∧
          ∀ value, result = .ok value → ∀ a, g.effect i a = a)) s past) :
    g.Abides i (.inside a)
      ((p.unlocked.attempt >>= release : LockProgram Op Answer Refusal ε α)) s past := by
  induction p generalizing s past with
  | ret value =>
    obtain ⟨ends, effect | ⟨nothing, idle⟩⟩ := runs
    · exact .inr ⟨effect, .inl rfl, ends⟩
    · exact .inl ⟨nothing, .inr (idle value rfl), ends⟩
  | fail error =>
    obtain ⟨ends, effect | ⟨nothing, -⟩⟩ := runs
    · exact .inr ⟨effect, ends⟩
    · exact .inl ⟨nothing, ends⟩
  | perform op next ih =>
    intro answer t performed
    obtain ⟨⟨change, during⟩, rest⟩ := runs s past .here answer t performed
    exact ⟨change, during, ih answer rest⟩

/-- A program that takes the lock, runs its section alone and gives the lock back. -/
theorem abides_locked {done : Bool} {refused : Refusal → ε} {body : Program Op Answer ε α}
    (refuses : ∀ t more reason, Later g.rely s past t more →
      g.ends i (.error (refused reason)) t more)
    (runs : ∀ t more a, Later g.rely s past t more → g.agrees a t →
      body.Guarantees g.performs (fun _ _ => False) (fun s t => g.rely s t ∧ g.during i a t)
        (fun result t more => g.ends i result t more ∧
          (g.agrees (g.effect i a) t ∨ g.agrees a t ∧
            ∀ value, result = .ok value → ∀ a, g.effect i a = a)) t more) :
    g.Abides i (.outside false done) (body.locked refused) s past :=
  ⟨rfl, fun t more later => ⟨fun a agrees => abides_inside (runs t more a later agrees),
    fun reason => refuses t more reason later⟩⟩

end Guarded

/-! ## Processes around a lock -/

/-- A process. -/
structure Process (Op : Type) (Answer : Op → Type) (Refusal ε α σ ι : Type) where
  /-- The command it runs. -/
  command : ι
  /-- What is left of its program; nothing, if it was stopped. -/
  rest : Option (LockProgram Op Answer Refusal ε α)
  /-- The states since it was started before the present one, newest first. No step reads this. -/
  past : List σ

/-- The process after a state was left. -/
def Process.saw {Op : Type} {Answer : Op → Type} {Refusal ε α σ ι : Type} (s : σ)
    (q : Process Op Answer Refusal ε α σ ι) : Process Op Answer Refusal ε α σ ι :=
  { q with past := s :: q.past }

/-- Processes around a lock. -/
structure LockedProcesses (Op : Type) (Answer : Op → Type) (Refusal ε α σ ι : Type) where
  /-- All processes that were started. -/
  processes : List (Process Op Answer Refusal ε α σ ι)
  /-- The process that has the lock. -/
  holder : Option Nat
  /-- Who took the lock, with its command, in order. No step reads this. -/
  entered : List (Nat × ι)
  /-- The state that the lock protects. -/
  state : σ

namespace LockedProcesses

variable {Op : Type} {Answer : Op → Type} {Refusal ε α σ ι A : Type}

/-- A state without processes. -/
def idle (s : σ) : LockedProcesses Op Answer Refusal ε α σ ι := ⟨[], none, [], s⟩

/-- The steps of processes that run the code of commands. A process may be stopped in its section
where the state allows it, and gives the lock back then. -/
inductive Step (performs : (op : Op) → σ → Answer op → σ → Prop) (mayStop : σ → Prop)
    (code : ι → LockProgram Op Answer Refusal ε α) :
    LockedProcesses Op Answer Refusal ε α σ ι → ProcessStep ι →
      LockedProcesses Op Answer Refusal ε α σ ι → Prop where
  /-- A command is started. -/
  | start (s : LockedProcesses Op Answer Refusal ε α σ ι) (command : ι) :
    Step performs mayStop code s (.start command)
      { s with processes := s.processes ++ [⟨command, some (code command), []⟩] }
  /-- A process takes the free lock. -/
  | take (s : LockedProcesses Op Answer Refusal ε α σ ι) (p : Nat)
      (q : Process Op Answer Refusal ε α σ ι)
      (next : Except Refusal Unit → LockProgram Op Answer Refusal ε α)
      (found : s.processes[p]? = some q) (waits : q.rest = some (.perform .acquire next))
      (free : s.holder = none) :
    Step performs mayStop code s (.perform p)
      { s with
        processes := s.processes.set p { q with rest := some (next (.ok ())) }
        holder := some p
        entered := s.entered ++ [(p, q.command)] }
  /-- A process is refused the lock. -/
  | refuse (s : LockedProcesses Op Answer Refusal ε α σ ι) (p : Nat)
      (q : Process Op Answer Refusal ε α σ ι)
      (next : Except Refusal Unit → LockProgram Op Answer Refusal ε α) (reason : Refusal)
      (found : s.processes[p]? = some q) (waits : q.rest = some (.perform .acquire next)) :
    Step performs mayStop code s (.perform p)
      { s with processes := s.processes.set p { q with rest := some (next (.error reason)) } }
  /-- A process gives the lock back. -/
  | release (s : LockedProcesses Op Answer Refusal ε α σ ι) (p : Nat)
      (q : Process Op Answer Refusal ε α σ ι)
      (next : Unit → LockProgram Op Answer Refusal ε α) (found : s.processes[p]? = some q)
      (waits : q.rest = some (.perform .release next)) :
    Step performs mayStop code s (.perform p)
      { s with
        processes := s.processes.set p { q with rest := some (next ()) }
        holder := if s.holder = some p then none else s.holder }
  /-- A process performs an operation that leaves the state. -/
  | look (s : LockedProcesses Op Answer Refusal ε α σ ι) (p : Nat)
      (q : Process Op Answer Refusal ε α σ ι) (op : Op)
      (next : Answer op → LockProgram Op Answer Refusal ε α) (answer : Answer op)
      (found : s.processes[p]? = some q) (waits : q.rest = some (.perform (.act op) next))
      (done : performs op s.state answer s.state) :
    Step performs mayStop code s (.perform p)
      { s with processes :=
          s.processes.set p (Process.saw s.state { q with rest := some (next answer) }) }
  /-- A process performs an operation that changes the state. -/
  | change (s : LockedProcesses Op Answer Refusal ε α σ ι) (p : Nat)
      (q : Process Op Answer Refusal ε α σ ι) (op : Op)
      (next : Answer op → LockProgram Op Answer Refusal ε α) (answer : Answer op) (t : σ)
      (found : s.processes[p]? = some q) (waits : q.rest = some (.perform (.act op) next))
      (done : performs op s.state answer t) (moved : t ≠ s.state) :
    Step performs mayStop code s (.perform p)
      { s with
        processes := (s.processes.set p { q with rest := some (next answer) }).map (·.saw s.state)
        state := t }
  /-- A process is stopped. -/
  | stop (s : LockedProcesses Op Answer Refusal ε α σ ι) (p : Nat)
      (q : Process Op Answer Refusal ε α σ ι) (found : s.processes[p]? = some q)
      (settled : s.holder = some p → mayStop s.state) :
    Step performs mayStop code s (.stop p)
      { s with
        processes := s.processes.set p { q with rest := none }
        holder := if s.holder = some p then none else s.holder }

/-- A process in a list in which one was replaced. -/
theorem lookup_set {l : List (Process Op Answer Refusal ε α σ ι)}
    {p p' : Nat} {q r : Process Op Answer Refusal ε α σ ι} (found : (l.set p q)[p']? = some r) :
    p' = p ∧ r = q ∨ p' ≠ p ∧ l[p']? = some r := by
  rw [List.getElem?_set] at found
  by_cases same : p = p'
  · rw [if_pos same] at found
    split at found
    · exact .inl ⟨same.symm, (Option.some.inj found).symm⟩
    · cases found
  · rw [if_neg same] at found
    exact .inr ⟨Ne.symm same, found⟩

/-- The process that was put into a list. -/
theorem lookup_set_self {l : List (Process Op Answer Refusal ε α σ ι)} {p : Nat}
    {q r : Process Op Answer Refusal ε α σ ι} (found : l[p]? = some q) :
    (l.set p r)[p]? = some r := by
  obtain ⟨inside, -⟩ := List.getElem?_eq_some_iff.mp found
  rw [List.getElem?_set_self inside]

/-- Another process, in a list in which one was replaced. -/
theorem lookup_set_other {l : List (Process Op Answer Refusal ε α σ ι)} {p p' : Nat}
    {q r : Process Op Answer Refusal ε α σ ι} (other : p' ≠ p) (found : l[p']? = some q) :
    (l.set p r)[p']? = some q := by
  rwa [List.getElem?_set_ne (Ne.symm other)]

/-- What runs and what took the lock was started. -/
theorem started {performs : (op : Op) → σ → Answer op → σ → Prop} {mayStop : σ → Prop}
    {code : ι → LockProgram Op Answer Refusal ε α} {u : σ} {labels : List (ProcessStep ι)}
    {s : LockedProcesses Op Answer Refusal ε α σ ι}
    (run : Run (Step performs mayStop code) (idle u) labels s) :
    (∀ q ∈ s.processes, .start q.command ∈ labels) ∧
      ∀ entry ∈ s.entered, .start entry.2 ∈ labels := by
  refine run.labelled (fun s labels => (∀ q ∈ s.processes, .start q.command ∈ labels) ∧
    ∀ entry ∈ s.entered, .start entry.2 ∈ labels)
    ⟨(fun _ none_ => nomatch none_), fun _ none_ => nomatch none_⟩ ?_
  intro s label t taken ⟨running, entered⟩ step
  have kept : ∀ {command : ι}, .start command ∈ taken → .start command ∈ taken ++ [label] :=
    fun member => List.mem_append_left _ member
  have replaced : ∀ {p : Nat} {q r : Process Op Answer Refusal ε α σ ι},
      s.processes[p]? = some q → r.command = q.command → ∀ q' ∈ s.processes.set p r,
        .start q'.command ∈ taken ++ [label] := by
    intro p q r found same q' member
    rcases List.mem_or_eq_of_mem_set member with old | rfl
    · exact kept (running q' old)
    · rw [same]
      exact kept (running q (List.mem_of_getElem? found))
  have before : ∀ entry ∈ s.entered, .start entry.2 ∈ taken ++ [label] :=
    fun entry member => kept (entered entry member)
  cases step with
  | start command =>
    refine ⟨fun q member => ?_, before⟩
    rcases List.mem_append.mp member with old | new
    · exact kept (running q old)
    · obtain rfl := List.mem_singleton.mp new
      exact List.mem_append_right _ (List.mem_singleton_self _)
  | take p q next found =>
    refine ⟨replaced found rfl, fun entry member => ?_⟩
    rcases List.mem_append.mp member with old | new
    · exact before entry old
    · obtain rfl := List.mem_singleton.mp new
      exact kept (running q (List.mem_of_getElem? found))
  | refuse p q next reason found => exact ⟨replaced found rfl, before⟩
  | release p q next found => exact ⟨replaced found rfl, before⟩
  | look p q op next answer found => exact ⟨replaced found rfl, before⟩
  | change p q op next answer t found =>
    refine ⟨fun q' member => ?_, before⟩
    obtain ⟨q'', member', rfl⟩ := List.mem_map.mp member
    exact replaced (r := { q with rest := some (next answer) }) found rfl q'' member'
  | stop p q found => exact ⟨replaced found rfl, before⟩

/-! ## What a process has seen -/

section Moments

variable {performs : (op : Op) → σ → Answer op → σ → Prop} {mayStop : σ → Prop}
  {code : ι → LockProgram Op Answer Refusal ε α}
  {s t : LockedProcesses Op Answer Refusal ε α σ ι}

/-- A process whose rest alone was replaced has seen what it had seen. -/
theorem past_set {p p' : Nat} {q q' r : Process Op Answer Refusal ε α σ ι}
    (found : s.processes[p]? = some q) (found' : (s.processes.set p q')[p']? = some r)
    (past : q'.past = q.past) :
    ∃ r', s.processes[p']? = some r' ∧ r.past = r'.past := by
  rcases lookup_set found' with ⟨rfl, rfl⟩ | ⟨-, old⟩
  · exact ⟨q, found, past⟩
  · exact ⟨r, old, rfl⟩

/-- What a process has seen after a step, it had seen before, or it is the state that was left. -/
theorem Step.past {label : ProcessStep ι} (step : Step performs mayStop code s label t) {p : Nat}
    {q : Process Op Answer Refusal ε α σ ι} (found : t.processes[p]? = some q) {u : σ}
    (member : u ∈ q.past) :
    (∃ q', s.processes[p]? = some q' ∧ u ∈ q'.past) ∨ u = s.state ∧ p < s.processes.length := by
  cases step with
  | start i =>
    rw [List.getElem?_append] at found
    split at found
    · exact .inl ⟨q, found, member⟩
    · rw [List.getElem?_singleton] at found
      split at found
      · obtain rfl := Option.some.inj found
        cases member
      · cases found
  | take p' r next old | refuse p' r next _ old | release p' r next old | stop p' r old =>
    obtain ⟨r', found', same⟩ := past_set old found rfl
    exact .inl ⟨r', found', same ▸ member⟩
  | look p' r op next answer old =>
    rcases lookup_set found with ⟨rfl, rfl⟩ | ⟨-, found'⟩
    · rcases List.mem_cons.mp member with now | before
      · exact .inr ⟨now, (List.getElem?_eq_some_iff.mp old).1⟩
      · exact .inl ⟨r, old, before⟩
    · exact .inl ⟨q, found', member⟩
  | change p' r op next answer u' old =>
    rw [List.getElem?_map] at found
    obtain ⟨q', found', rfl⟩ := Option.map_eq_some_iff.mp found
    obtain ⟨r', found'', same⟩ := past_set old found' rfl
    rcases List.mem_cons.mp member with now | before
    · exact .inr ⟨now, (List.getElem?_eq_some_iff.mp found'').1⟩
    · exact .inl ⟨r', found'', same ▸ before⟩

/-- What a process has seen is a state that the run was in since the process was started. -/
theorem moment {u₀ : σ} {labels : List (ProcessStep ι)}
    (run : Run (Step performs mayStop code) (idle u₀) labels s) {p : Nat}
    {q : Process Op Answer Refusal ε α σ ι} (found : s.processes[p]? = some q) {u : σ}
    (member : u ∈ s.state :: q.past) :
    ∃ before after mid, labels = before ++ after ∧
      Run (Step performs mayStop code) (idle u₀) before mid ∧
      Run (Step performs mayStop code) mid after s ∧ p < mid.processes.length ∧
      mid.state = u := by
  rcases List.mem_cons.mp member with now | seen
  · exact ⟨labels, [], s, (List.append_nil _).symm, run, .nil,
      (List.getElem?_eq_some_iff.mp found).1, now.symm⟩
  clear member
  induction run generalizing p q with
  | nil => cases found
  | @concat labels label mid last before next ih =>
    rcases next.past found seen with ⟨q', found', seen'⟩ | ⟨rfl, started⟩
    · obtain ⟨first, rest, at_, rfl, run, later, started, state⟩ := ih found' seen'
      exact ⟨first, rest ++ [label], at_, List.append_assoc .., run, later.concat next, started,
        state⟩
    · exact ⟨labels, [label], mid, rfl, before, Run.nil.concat next, started, rfl⟩

end Moments

end LockedProcesses

/-! ## Runs are serial -/

namespace Guarded

open Program

variable {Op : Type} {Answer : Op → Type} {Refusal ε α σ ι A : Type}

/-- A state that occurs: it stands for a value, or a section runs. -/
def Holds (g : Guarded Op Answer ε α σ ι A) (s : σ) : Prop :=
  (∃ a, g.agrees a s) ∨ ∃ i a, g.during i a s

/-- What the commands have to do for their runs to be serial. -/
structure Lawful (g : Guarded Op Answer ε α σ ι A) (mayStop : σ → Prop)
    (code : ι → LockProgram Op Answer Refusal ε α) : Prop where
  /-- A section begins where the state stands for a value. -/
  begins : ∀ i a s, g.agrees a s → g.during i a s
  /-- A section that may be stopped has taken effect or done nothing. -/
  stops : ∀ i a s, g.during i a s → mayStop s → g.agrees a s ∨ g.agrees (g.effect i a) s
  /-- How a command ended does not depend on what comes after it. -/
  stable : ∀ i result s t past, g.ends i result s past → g.rely s t →
    g.ends i result t (s :: past)
  /-- A command uses the lock as it should, wherever it starts. -/
  abides : ∀ i s, g.Holds s → g.Abides i (.outside false false) (code i) s []

/-- The value after commands took effect, one after the other. -/
def after (g : Guarded Op Answer ε α σ ι A) (a : A) (chosen : List (Nat × ι)) : A :=
  chosen.foldl (fun a entry => g.effect entry.2 a) a

/-- One more command took effect. -/
theorem after_concat (g : Guarded Op Answer ε α σ ι A) (a : A) (chosen : List (Nat × ι))
    (entry : Nat × ι) : g.after a (chosen ++ [entry]) = g.effect entry.2 (g.after a chosen) := by
  simp [after]

/-- A process without the lock has at most the rest of its program before or behind its section,
and has taken effect if it is done. -/
def Waits (g : Guarded Op Answer ε α σ ι A) (s : LockedProcesses Op Answer Refusal ε α σ ι)
    (chosen : List (Nat × ι)) (p : Nat) (q : Process Op Answer Refusal ε α σ ι)
    (rest : LockProgram Op Answer Refusal ε α) : Prop :=
  ∃ entered done, g.Abides q.command (.outside entered done) rest s.state q.past ∧
    (entered = false → ∀ entry ∈ s.entered, entry.1 ≠ p) ∧
    (done = true → (p, q.command) ∈ chosen)

/-- The process that has the lock is in its section, took the lock last, and found the value that
the commands before it left. -/
structure Holding (g : Guarded Op Answer ε α σ ι A) (a : A)
    (s : LockedProcesses Op Answer Refusal ε α σ ι) (chosen : List (Nat × ι)) (p : Nat)
    (q : Process Op Answer Refusal ε α σ ι) (rest : LockProgram Op Answer Refusal ε α)
    (before : List (Nat × ι)) : Prop where
  /-- It is the process. -/
  found : s.processes[p]? = some q
  /-- This is left of it. -/
  left : q.rest = some rest
  /-- It took the lock last. -/
  entered : s.entered = before ++ [(p, q.command)]
  /-- The commands that took effect had the lock before. -/
  sublist : chosen.Sublist before
  /-- It is in its section. -/
  abides : g.Abides q.command (.inside (g.after a chosen)) rest s.state q.past
  /-- The state is one of its section. -/
  during : g.during q.command (g.after a chosen) s.state

/-- The commands that took effect are some of those that took the lock, in that order, each once;
with them the state is explained, and what is left of all processes goes on so. -/
structure Serial (g : Guarded Op Answer ε α σ ι A) (a : A)
    (s : LockedProcesses Op Answer Refusal ε α σ ι) (chosen : List (Nat × ι)) : Prop where
  /-- A process takes the lock once. -/
  once : (s.entered.map Prod.fst).Nodup
  /-- Who took the lock was started. -/
  known : ∀ entry ∈ s.entered, entry.1 < s.processes.length
  /-- A process without the lock. -/
  waits : ∀ p q rest, s.processes[p]? = some q → q.rest = some rest → s.holder ≠ some p →
    g.Waits s chosen p q rest
  /-- While the lock is free, the state stands for the value of the effects. -/
  free : s.holder = none → chosen.Sublist s.entered ∧ g.agrees (g.after a chosen) s.state
  /-- A process with the lock. -/
  held : ∀ p, s.holder = some p → ∃ q rest before, g.Holding a s chosen p q rest before

variable {g : Guarded Op Answer ε α σ ι A} {a : A} {mayStop : σ → Prop}
  {code : ι → LockProgram Op Answer Refusal ε α}
  {s t : LockedProcesses Op Answer Refusal ε α σ ι} {chosen : List (Nat × ι)}

/-- The state of a serial run occurs. -/
theorem Serial.holds (serial : g.Serial a s chosen) : g.Holds s.state := by
  cases holder : s.holder with
  | none => exact .inl ⟨_, (serial.free holder).2⟩
  | some p =>
    obtain ⟨q, rest, before, holding⟩ := serial.held p holder
    exact .inr ⟨_, _, holding.during⟩

/-- A process that waits for the lock does not have it. -/
theorem Serial.not_holder_of_acquire (serial : g.Serial a s chosen) {p : Nat}
    {q : Process Op Answer Refusal ε α σ ι}
    {next : Except Refusal Unit → LockProgram Op Answer Refusal ε α}
    (found : s.processes[p]? = some q) (left : q.rest = some (.perform .acquire next)) :
    s.holder ≠ some p := by
  intro holder
  obtain ⟨q', rest, before, holding⟩ := serial.held p holder
  obtain rfl := Option.some.inj (found.symm.trans holding.found)
  obtain rfl := Option.some.inj (left.symm.trans holding.left)
  exact holding.abides

/-- A process that gives the lock back has it. -/
theorem Serial.holder_of_release (serial : g.Serial a s chosen) {p : Nat}
    {q : Process Op Answer Refusal ε α σ ι}
    {next : Unit → LockProgram Op Answer Refusal ε α}
    (found : s.processes[p]? = some q) (left : q.rest = some (.perform .release next)) :
    s.holder = some p := by
  by_contra other
  obtain ⟨entered, done, abides, -⟩ := serial.waits p q _ found left other
  exact abides

/-- A process goes on waiting while the state stays, others take the lock, and more took effect. -/
theorem Waits.mono {p : Nat} {q : Process Op Answer Refusal ε α σ ι}
    {rest : LockProgram Op Answer Refusal ε α} {more : List (Nat × ι)}
    (waits : g.Waits s chosen p q rest) (state : t.state = s.state)
    (entered : ∀ entry ∈ t.entered, entry ∈ s.entered ∨ entry.1 ≠ p)
    (chosen_more : ∀ entry ∈ chosen, entry ∈ more) : g.Waits t more p q rest := by
  obtain ⟨entered', done, abides, first, effective⟩ := waits
  refine ⟨entered', done, state ▸ abides, fun new entry member => ?_,
    fun isDone => chosen_more _ (effective isDone)⟩
  rcases entered entry member with old | other
  · exact first new entry old
  · exact other

/-- A command is started. -/
theorem Serial.start (lawful : g.Lawful mayStop code) (serial : g.Serial a s chosen) (i : ι) :
    g.Serial a { s with processes := s.processes ++ [⟨i, some (code i), []⟩] } chosen where
  once := serial.once
  known entry member := by
    have old := serial.known entry member
    simp only [List.length_append, List.length_singleton]
    omega
  waits p q rest found left other := by
    rw [List.getElem?_append] at found
    split at found
    · exact (serial.waits p q rest found left other).mono rfl (fun _ member => .inl member)
        fun _ member => member
    · rename_i new
      obtain ⟨index, rfl⟩ : p - s.processes.length = 0 ∧ q = ⟨i, some (code i), []⟩ := by
        rw [List.getElem?_singleton] at found
        split at found
        · exact ⟨‹_›, (Option.some.inj found).symm⟩
        · cases found
      obtain rfl := Option.some.inj left
      refine ⟨false, false, lawful.abides i s.state serial.holds, fun _ entry member => ?_,
        fun absurd_ => (Bool.false_ne_true absurd_).elim⟩
      have old := serial.known entry member
      omega
  free := serial.free
  held p holder := by
    obtain ⟨q, rest, before, holding⟩ := serial.held p holder
    refine ⟨q, rest, before, { holding with found := ?_ }⟩
    obtain ⟨inside, -⟩ := List.getElem?_eq_some_iff.mp holding.found
    exact (List.getElem?_append_left inside).trans holding.found

/-- A process takes the free lock. -/
theorem Serial.take (lawful : g.Lawful mayStop code) (serial : g.Serial a s chosen) {p : Nat}
    {q : Process Op Answer Refusal ε α σ ι}
    {next : Except Refusal Unit → LockProgram Op Answer Refusal ε α}
    (found : s.processes[p]? = some q) (left : q.rest = some (.perform .acquire next))
    (free : s.holder = none) :
    g.Serial a
      { s with
        processes := s.processes.set p { q with rest := some (next (.ok ())) }
        holder := some p
        entered := s.entered ++ [(p, q.command)] } chosen := by
  obtain ⟨sublist, agrees⟩ := serial.free free
  obtain ⟨entered, done, ⟨first, rest⟩, new, -⟩ :=
    serial.waits p q _ found left (fun same => nomatch free.symm.trans same)
  constructor
  · rw [List.map_append, List.map_singleton, List.nodup_append]
    refine ⟨serial.once, List.pairwise_singleton _ _, ?_⟩
    intro p₁ member p₂ only same
    obtain ⟨entry, old, rfl⟩ := List.mem_map.mp member
    exact new first entry old (same.trans (List.mem_singleton.mp only))
  · intro entry member
    rw [List.length_set]
    rcases List.mem_append.mp member with old | here
    · exact serial.known entry old
    · obtain rfl := List.mem_singleton.mp here
      exact (List.getElem?_eq_some_iff.mp found).1
  · intro p' q' rest' found' left' other
    rcases LockedProcesses.lookup_set found' with ⟨rfl, -⟩ | ⟨different, old⟩
    · exact absurd rfl other
    · refine (serial.waits p' q' rest' old left' (fun same => nomatch free.symm.trans same)).mono
        rfl (fun entry member => ?_) fun _ member => member
      rcases List.mem_append.mp member with before | here
      · exact .inl before
      · obtain rfl := List.mem_singleton.mp here
        exact .inr (Ne.symm different)
  · intro none_
    cases none_
  · intro p' same
    obtain rfl := Option.some.inj same
    exact ⟨_, _, s.entered,
      { found := LockedProcesses.lookup_set_self found
        left := rfl
        entered := rfl
        sublist := sublist
        abides := (rest s.state q.past .here).1 _ agrees
        during := lawful.begins _ _ _ agrees }⟩

/-- A process without the lock goes on, and the state stays. -/
theorem Serial.goOn (serial : g.Serial a s chosen) {p : Nat}
    {q q' : Process Op Answer Refusal ε α σ ι} (found : s.processes[p]? = some q)
    (outside : s.holder ≠ some p)
    (waits : ∀ rest, q'.rest = some rest → g.Waits s chosen p q' rest) :
    g.Serial a { s with processes := s.processes.set p q' } chosen where
  once := serial.once
  known entry member := by
    rw [List.length_set]
    exact serial.known entry member
  waits p' r rest found' left other := by
    rcases LockedProcesses.lookup_set found' with ⟨rfl, rfl⟩ | ⟨-, old⟩
    · exact (waits rest left).mono rfl (fun _ member => .inl member) fun _ member => member
    · exact (serial.waits p' r rest old left other).mono rfl (fun _ member => .inl member)
        fun _ member => member
  free := serial.free
  held h holder := by
    obtain ⟨r, rest, before, holding⟩ := serial.held h holder
    have different : h ≠ p := fun same => outside (same ▸ holder)
    exact ⟨r, rest, before,
      { holding with found := LockedProcesses.lookup_set_other different holding.found }⟩

/-- The process with the lock gives it back, or loses it, after some commands took effect. -/
theorem Serial.leave (serial : g.Serial a s chosen) {p : Nat}
    {q q' : Process Op Answer Refusal ε α σ ι} {more : List (Nat × ι)}
    (found : s.processes[p]? = some q) (holder : s.holder = some p)
    (sublist : more.Sublist s.entered) (keeps : ∀ entry ∈ chosen, entry ∈ more)
    (agrees : g.agrees (g.after a more) s.state)
    (waits : ∀ rest, q'.rest = some rest → g.Waits s more p q' rest) :
    g.Serial a { s with processes := s.processes.set p q', holder := none } more where
  once := serial.once
  known entry member := by
    rw [List.length_set]
    exact serial.known entry member
  waits p' r rest found' left _ := by
    rcases LockedProcesses.lookup_set found' with ⟨rfl, rfl⟩ | ⟨different, old⟩
    · exact (waits rest left).mono rfl (fun _ member => .inl member) fun _ member => member
    · have other : s.holder ≠ some p' := fun same =>
        different (Option.some.inj (same.symm.trans holder))
      exact (serial.waits p' r rest old left other).mono rfl (fun _ member => .inl member) keeps
  free _ := ⟨sublist, agrees⟩
  held _ none_ := nomatch none_

/-- The process with the lock performs an operation. -/
theorem Serial.work (serial : g.Serial a s chosen) {p : Nat}
    {q : Process Op Answer Refusal ε α σ ι} {op : Op}
    {next : Answer op → LockProgram Op Answer Refusal ε α} {answer : Answer op} {u : σ}
    (stable : ∀ i result s t past, g.ends i result s past → g.rely s t →
      g.ends i result t (s :: past))
    (found : s.processes[p]? = some q) (left : q.rest = some (.perform (.act op) next))
    (holder : s.holder = some p) (done : g.performs op s.state answer u) :
    g.Serial a
      { s with
        processes := (s.processes.set p { q with rest := some (next answer) }).map (·.saw s.state)
        state := u } chosen := by
  obtain ⟨q', rest, before, holding⟩ := serial.held p holder
  obtain rfl := Option.some.inj (found.symm.trans holding.found)
  obtain rfl := Option.some.inj (left.symm.trans holding.left)
  obtain ⟨change, during, abides⟩ := holding.abides answer u done
  constructor
  · exact serial.once
  · intro entry member
    rw [List.length_map, List.length_set]
    exact serial.known entry member
  · intro p' r rest' found' left' other
    rw [List.getElem?_map] at found'
    obtain ⟨r', found'', rfl⟩ := Option.map_eq_some_iff.mp found'
    rcases LockedProcesses.lookup_set found'' with ⟨rfl, -⟩ | ⟨-, old⟩
    · exact absurd holder other
    · obtain ⟨entered, isDone, waits, first, effective⟩ :=
        serial.waits p' r' rest' old left' other
      exact ⟨entered, isDone, waits.later (stable _) change, first, effective⟩
  · intro none_
    cases holder.symm.trans none_
  · intro p' same
    obtain rfl := Option.some.inj (holder.symm.trans same)
    refine ⟨Process.saw s.state { q with rest := some (next answer) }, next answer, before,
      ?_, rfl, holding.entered, holding.sublist, abides, during⟩
    rw [List.getElem?_map, LockedProcesses.lookup_set_self found]
    rfl

/-- The process with the lock performs an operation that leaves the state. -/
theorem Serial.watch (serial : g.Serial a s chosen) {p : Nat}
    {q : Process Op Answer Refusal ε α σ ι} {op : Op}
    {next : Answer op → LockProgram Op Answer Refusal ε α} {answer : Answer op}
    (found : s.processes[p]? = some q) (left : q.rest = some (.perform (.act op) next))
    (holder : s.holder = some p) (done : g.performs op s.state answer s.state) :
    g.Serial a
      { s with processes :=
          s.processes.set p (Process.saw s.state { q with rest := some (next answer) }) }
      chosen := by
  obtain ⟨q', rest, before, holding⟩ := serial.held p holder
  obtain rfl := Option.some.inj (found.symm.trans holding.found)
  obtain rfl := Option.some.inj (left.symm.trans holding.left)
  obtain ⟨-, during, abides⟩ := holding.abides answer _ done
  constructor
  · exact serial.once
  · intro entry member
    rw [List.length_set]
    exact serial.known entry member
  · intro p' r rest' found' left' other
    rcases LockedProcesses.lookup_set found' with ⟨rfl, -⟩ | ⟨-, old⟩
    · exact absurd holder other
    · exact (serial.waits p' r rest' old left' other).mono rfl (fun _ member => .inl member)
        fun _ member => member
  · intro none_
    cases holder.symm.trans none_
  · intro p' same
    obtain rfl := Option.some.inj (holder.symm.trans same)
    exact ⟨Process.saw s.state { q with rest := some (next answer) }, next answer, before,
      LockedProcesses.lookup_set_self found, rfl, holding.entered, holding.sublist, abides, during⟩

/-- What a process that gives the lock back, or is stopped, has done: nothing, or its effect. -/
theorem Serial.close (serial : g.Serial a s chosen) {p : Nat}
    {q q' : Process Op Answer Refusal ε α σ ι} (found : s.processes[p]? = some q)
    (holder : s.holder = some p) (command : q'.command = q.command)
    (closes : g.agrees (g.after a chosen) s.state ∧
        (∀ rest, q'.rest = some rest →
          g.Abides q.command (.outside true false) rest s.state q'.past) ∨
      g.agrees (g.effect q.command (g.after a chosen)) s.state ∧
        ∀ rest, q'.rest = some rest →
          g.Abides q.command (.outside true true) rest s.state q'.past) :
    ∃ more, chosen <+: more ∧
      g.Serial a { s with processes := s.processes.set p q', holder := none } more := by
  obtain ⟨q₁, rest, before, holding⟩ := serial.held p holder
  obtain rfl := Option.some.inj (found.symm.trans holding.found)
  rcases closes with ⟨agrees, abides⟩ | ⟨agrees, abides⟩
  · have sublist : chosen.Sublist s.entered := by
      rw [holding.entered]
      exact holding.sublist.trans (List.sublist_append_left _ _)
    refine ⟨chosen, List.prefix_rfl, serial.leave found holder sublist (fun _ member => member)
      agrees fun rest left => ?_⟩
    have waits := abides rest left
    rw [← command] at waits
    exact ⟨true, false, waits, fun no => Bool.noConfusion no, fun no => Bool.noConfusion no⟩
  · have sublist : (chosen ++ [(p, q.command)]).Sublist s.entered := by
      rw [holding.entered]
      exact holding.sublist.append_right _
    refine ⟨chosen ++ [(p, q.command)], List.prefix_append _ _, serial.leave found holder sublist
      (fun _ member => List.mem_append_left _ member) (g.after_concat a chosen _ ▸ agrees)
      fun rest left => ?_⟩
    have waits := abides rest left
    rw [← command] at waits ⊢
    exact ⟨true, true, waits, fun no => Bool.noConfusion no,
      fun _ => List.mem_append_right _ (List.mem_singleton_self _)⟩

/-- Every step keeps a run serial, and what took effect stays. -/
theorem Serial.step (lawful : g.Lawful mayStop code) (serial : g.Serial a s chosen)
    {label : ProcessStep ι}
    (step : LockedProcesses.Step g.performs mayStop code s label t) :
    ∃ more, chosen <+: more ∧ g.Serial a t more := by
  cases step with
  | start i => exact ⟨chosen, List.prefix_rfl, serial.start lawful i⟩
  | take p q next found left free =>
    exact ⟨chosen, List.prefix_rfl, serial.take lawful found left free⟩
  | refuse p q next reason found left =>
    have outside := serial.not_holder_of_acquire found left
    obtain ⟨entered, done, ⟨-, refuses⟩, first, effective⟩ :=
      serial.waits p q _ found left outside
    refine ⟨chosen, List.prefix_rfl, serial.goOn found outside fun rest same => ?_⟩
    obtain rfl := Option.some.inj same
    exact ⟨entered, done, (refuses s.state q.past .here).2 reason, first, effective⟩
  | release p q next found left =>
    have holder := serial.holder_of_release found left
    obtain ⟨q', rest, before, holding⟩ := serial.held p holder
    obtain rfl := Option.some.inj (found.symm.trans holding.found)
    obtain rfl := Option.some.inj (left.symm.trans holding.left)
    rw [if_pos holder]
    refine serial.close found holder rfl ?_
    rcases holding.abides with ⟨agrees, abides⟩ | ⟨agrees, abides⟩
    · exact .inl ⟨agrees, fun rest same => Option.some.inj same ▸ abides⟩
    · exact .inr ⟨agrees, fun rest same => Option.some.inj same ▸ abides⟩
  | look p q op next answer found left done =>
    refine ⟨chosen, List.prefix_rfl, ?_⟩
    by_cases holder : s.holder = some p
    · exact serial.watch found left holder done
    · obtain ⟨entered, isDone, abides, first, effective⟩ := serial.waits p q _ found left holder
      refine serial.goOn found holder fun rest same => ?_
      obtain rfl := Option.some.inj same
      exact ⟨entered, isDone, (abides s.state q.past .here answer _ done).2, first, effective⟩
  | change p q op next answer u found left done moved =>
    refine ⟨chosen, List.prefix_rfl, ?_⟩
    by_cases holder : s.holder = some p
    · exact serial.work lawful.stable found left holder done
    · obtain ⟨entered, isDone, abides, -⟩ := serial.waits p q _ found left holder
      exact absurd (abides s.state q.past .here answer _ done).1 moved
  | stop p q found settled =>
    by_cases holder : s.holder = some p
    · obtain ⟨q', rest, before, holding⟩ := serial.held p holder
      obtain rfl := Option.some.inj (found.symm.trans holding.found)
      rw [if_pos holder]
      refine serial.close found holder rfl ?_
      rcases lawful.stops _ _ _ holding.during (settled holder) with nothing | effect
      · exact .inl ⟨nothing, fun _ none_ => nomatch none_⟩
      · exact .inr ⟨effect, fun _ none_ => nomatch none_⟩
    · rw [if_neg holder]
      exact ⟨chosen, List.prefix_rfl,
        serial.goOn found holder fun _ none_ => nomatch none_⟩

/-- Without processes nothing took effect. -/
theorem serial_idle {u : σ} (agrees : g.agrees a u) :
    g.Serial a (LockedProcesses.idle u : LockedProcesses Op Answer Refusal ε α σ ι) [] where
  once := List.nodup_nil
  known _ none_ := nomatch none_
  waits _ _ _ none_ := nomatch none_
  free _ := ⟨List.Sublist.refl _, agrees⟩
  held _ none_ := nomatch none_

/-- A run goes on being serial, and what took effect stays. -/
theorem Serial.run (lawful : g.Lawful mayStop code) (serial : g.Serial a s chosen)
    {labels : List (ProcessStep ι)}
    (run : Run (LockedProcesses.Step g.performs mayStop code) s labels t) :
    ∃ more, chosen <+: more ∧ g.Serial a t more :=
  run.invariant (fun t => ∃ more, chosen <+: more ∧ g.Serial a t more)
    ⟨chosen, List.prefix_rfl, serial⟩ fun _ _ _ ⟨_, before, mid⟩ step =>
      have ⟨more, after, last⟩ := mid.step lawful step
      ⟨more, before.trans after, last⟩

/-- A step of a serial run leaves the state, or changes it as is relied on. -/
theorem Serial.changes (serial : g.Serial a s chosen) {label : ProcessStep ι}
    (step : LockedProcesses.Step g.performs mayStop code s label t) :
    t.state = s.state ∨ g.rely s.state t.state := by
  cases step with
  | start | take | refuse | release | look | stop => exact .inl rfl
  | change p q op next answer u found left done moved =>
    by_cases holder : s.holder = some p
    · obtain ⟨q', rest, before, holding⟩ := serial.held p holder
      obtain rfl := Option.some.inj (found.symm.trans holding.found)
      obtain rfl := Option.some.inj (left.symm.trans holding.left)
      exact .inr (holding.abides answer u done).1
    · obtain ⟨entered, isDone, abides, -⟩ := serial.waits p q _ found left holder
      exact absurd (abides s.state q.past .here answer _ done).1 moved

/-- What changes that are relied on keep, a serial run keeps. -/
theorem Serial.invariant (lawful : g.Lawful mayStop code) (serial : g.Serial a s chosen)
    (holds : σ → Prop) (here : holds s.state) (kept : ∀ v w, holds v → g.rely v w → holds w)
    {labels : List (ProcessStep ι)}
    (run : Run (LockedProcesses.Step g.performs mayStop code) s labels t) : holds t.state :=
  (run.invariant (fun t => (∃ more, g.Serial a t more) ∧ holds t.state) ⟨⟨chosen, serial⟩, here⟩
    fun _ _ _ ⟨⟨_, mid⟩, before⟩ step => by
      obtain ⟨more, -, next⟩ := mid.step lawful step
      refine ⟨⟨more, next⟩, ?_⟩
      rcases mid.changes step with same | change
      · exact same ▸ before
      · exact kept _ _ before change).2

/-- A command that returned has taken effect, if it has one, and ended as commands end. -/
theorem Serial.returned (serial : g.Serial a s chosen) {p : Nat}
    {q : Process Op Answer Refusal ε α σ ι} {value : α} (found : s.processes[p]? = some q)
    (returns : q.rest = some (.ret value)) :
    ((p, q.command) ∈ chosen ∨ ∀ a, g.effect q.command a = a) ∧
      g.ends q.command (.ok value) s.state q.past := by
  have outside : s.holder ≠ some p := by
    intro holder
    obtain ⟨q', rest, before, holding⟩ := serial.held p holder
    obtain rfl := Option.some.inj (found.symm.trans holding.found)
    obtain rfl := Option.some.inj (returns.symm.trans holding.left)
    exact holding.abides
  obtain ⟨entered, done, ⟨effective, ends⟩, -, isDone⟩ := serial.waits p q _ found returns outside
  exact ⟨effective.imp_left isDone, ends⟩

end Guarded
