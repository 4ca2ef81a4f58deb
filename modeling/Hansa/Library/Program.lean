import Mathlib.Init

/-!
# Programs that may be stopped at any operation

A program returns, fails, or performs an operation on a shared state and goes on with its
answer. What an operation answers and does is a relation, so that one operation may succeed,
fail or do a part of its work. `Safe` is the weakest precondition under which a property holds
in every state on the way, where a program that is stopped leaves the state, and a second one
where the program ends.
-/

/-- Programs over operations, with the type of each operation's answer. -/
inductive Program (Op : Type) (Answer : Op → Type) (ε α : Type) where
  /-- Return a value. -/
  | ret (value : α)
  /-- Fail. -/
  | fail (error : ε)
  /-- Perform an operation and go on with its answer. -/
  | perform (op : Op) (next : Answer op → Program Op Answer ε α)

namespace Program

variable {Op : Type} {Answer : Op → Type} {ε α β σ : Type}

/-- One program after another. -/
def andThen : Program Op Answer ε α → (α → Program Op Answer ε β) → Program Op Answer ε β
  | ret value, rest => rest value
  | fail error, _ => fail error
  | perform op next, rest => perform op fun answer => (next answer).andThen rest

instance : Monad (Program Op Answer ε) where
  pure := ret
  bind := andThen

/-- A program that returns how the given one ends. -/
def attempt : Program Op Answer ε α → Program Op Answer ε (Except ε α)
  | ret value => ret (.ok value)
  | fail error => ret (.error error)
  | perform op next => perform op fun answer => (next answer).attempt

/-- A program whose errors are rewritten. -/
def mapError (f : ε → ε) : Program Op Answer ε α → Program Op Answer ε α
  | ret value => ret value
  | fail error => fail (f error)
  | perform op next => perform op fun answer => (next answer).mapError f

/-- A value, or an error, that is computed without operations. -/
def ofExcept : Except ε α → Program Op Answer ε α
  | .ok value => ret value
  | .error error => fail error

/-- A program performs a number of operations, and leaves the rest of itself and a state. -/
inductive Reaches (performs : (op : Op) → σ → Answer op → σ → Prop) :
    Nat → Program Op Answer ε α → σ → Program Op Answer ε α → σ → Prop where
  /-- It stays where it is. -/
  | here (p : Program Op Answer ε α) (s : σ) : Reaches performs 0 p s p s
  /-- It performs its next operation, and others behind it. -/
  | next {op : Op} {next : Answer op → Program Op Answer ε α} {answer : Answer op} {n : Nat}
      {p : Program Op Answer ε α} {s t u : σ} (done : performs op s answer t)
      (later : Reaches performs n (next answer) t p u) :
      Reaches performs (n + 1) (perform op next) s p u

section Reaches

variable {performs : (op : Op) → σ → Answer op → σ → Prop} {p : Program Op Answer ε α} {value : α}
  {n : Nat} {s t : σ}

/-- A sequence goes on where its first part returns. -/
theorem Reaches.bind {f : α → Program Op Answer ε β} {q : Program Op Answer ε β} {m : Nat} {u : σ}
    (returns : p.Reaches performs n s (ret value) t)
    (later : (f value).Reaches performs m t q u) : (p >>= f).Reaches performs (n + m) s q u := by
  generalize left : ret value = r at returns
  induction returns with
  | here p s =>
    subst left
    rw [Nat.zero_add]
    exact later
  | next done _ ih =>
    rw [Nat.add_right_comm]
    exact .next done (ih later left)

/-- Operations behind operations. -/
theorem Reaches.append {q r : Program Op Answer ε α} {m : Nat} {u : σ}
    (reaches : p.Reaches performs n s q t) (later : q.Reaches performs m t r u) :
    p.Reaches performs (n + m) s r u := by
  induction reaches with
  | here p s =>
    rw [Nat.zero_add]
    exact later
  | next done _ ih =>
    rw [Nat.add_right_comm]
    exact .next done (ih later)

/-- A value is computed without operations. -/
theorem reaches_ofExcept {result : Except ε α} (same : result = .ok value) (s : σ) :
    (ofExcept result : Program Op Answer ε α).Reaches performs 0 s (ret value) s := by
  subst same
  exact .here _ s

/-- Rewriting errors changes nothing of a program that returns. -/
theorem Reaches.mapError {f : ε → ε} (returns : p.Reaches performs n s (ret value) t) :
    (p.mapError f).Reaches performs n s (ret value) t := by
  generalize left : ret value = r at returns
  induction returns with
  | here p s =>
    subst left
    exact .here _ s
  | next done _ ih => exact .next done (ih left)

end Reaches

/-! ## The operations a program may perform -/

/-- A program performs allowed operations alone. -/
def Uses (allowed : Op → Prop) : Program Op Answer ε α → Prop
  | ret _ => True
  | fail _ => True
  | perform op next => allowed op ∧ ∀ answer, (next answer).Uses allowed

section Uses

variable {allowed : Op → Prop} {p : Program Op Answer ε α}

/-- A value is returned without operations. -/
theorem uses_ret (value : α) : (ret value : Program Op Answer ε α).Uses allowed := trivial

/-- A failure performs no operations. -/
theorem uses_fail (error : ε) : (fail error : Program Op Answer ε α).Uses allowed := trivial

/-- A program performs its first operation and those behind it. -/
theorem uses_perform {op : Op} {next : Answer op → Program Op Answer ε α} (first : allowed op)
    (rest : ∀ answer, (next answer).Uses allowed) : (perform op next).Uses allowed :=
  ⟨first, rest⟩

/-- A sequence performs the operations of its parts. -/
theorem Uses.bind {f : α → Program Op Answer ε β} (first : p.Uses allowed)
    (rest : ∀ value, (f value).Uses allowed) : (p >>= f).Uses allowed := by
  induction p with
  | ret value => exact rest value
  | fail error => trivial
  | perform op next ih => exact ⟨first.1, fun answer => ih answer (first.2 answer)⟩

/-- Errors can be rewritten without operations. -/
theorem Uses.mapError {f : ε → ε} (uses : p.Uses allowed) : (p.mapError f).Uses allowed := by
  induction p with
  | ret value => trivial
  | fail error => trivial
  | perform op next ih => exact ⟨uses.1, fun answer => ih answer (uses.2 answer)⟩

/-- Values are computed without operations. -/
theorem uses_ofExcept (result : Except ε α) :
    (ofExcept result : Program Op Answer ε α).Uses allowed := by
  cases result <;> trivial

end Uses

/-! ## What holds on the way -/

section Safe

variable {performs : (op : Op) → σ → Answer op → σ → Prop} {holds : σ → Prop}

/-- From a state, a property holds in every state that the program reaches, and a second one
where it ends. -/
def Safe (performs : (op : Op) → σ → Answer op → σ → Prop) (holds : σ → Prop)
    (post : Except ε α → σ → Prop) : Program Op Answer ε α → σ → Prop
  | ret value, s => holds s ∧ post (.ok value) s
  | fail error, s => holds s ∧ post (.error error) s
  | perform op next, s => holds s ∧
      ∀ answer t, performs op s answer t → (next answer).Safe performs holds post t

/-- A returned value stays where it is. -/
theorem safe_ret {post : Except ε α → σ → Prop} {value : α} {s : σ} (here : holds s)
    (ends : post (.ok value) s) :
    (ret value : Program Op Answer ε α).Safe performs holds post s := ⟨here, ends⟩

/-- A failure stays where it is. -/
theorem safe_fail {post : Except ε α → σ → Prop} {error : ε} {s : σ} (here : holds s)
    (ends : post (.error error) s) :
    (fail error : Program Op Answer ε α).Safe performs holds post s := ⟨here, ends⟩

/-- An operation is safe if the rest is, wherever it leads. -/
theorem safe_perform {post : Except ε α → σ → Prop} {op : Op}
    {next : Answer op → Program Op Answer ε α} {s : σ} (here : holds s)
    (rest : ∀ answer t, performs op s answer t → (next answer).Safe performs holds post t) :
    (perform op next).Safe performs holds post s := ⟨here, rest⟩

/-- What is left behind an operation is safe. -/
theorem Safe.next {post : Except ε α → σ → Prop} {op : Op}
    {next : Answer op → Program Op Answer ε α} {s t : σ} {answer : Answer op}
    (safe : (perform op next).Safe performs holds post s) (done : performs op s answer t) :
    (next answer).Safe performs holds post t := safe.2 answer t done

/-- The property holds where the program starts. -/
theorem Safe.here {post : Except ε α → σ → Prop} {p : Program Op Answer ε α} {s : σ}
    (safe : p.Safe performs holds post s) : holds s := by
  cases p <;> exact safe.1

/-- What is to hold where a program ends. -/
theorem Safe.ends {post : Except ε α → σ → Prop} {result : Except ε α} {s : σ}
    (safe : (ofExcept result : Program Op Answer ε α).Safe performs holds post s) :
    post result s := by
  cases result <;> exact safe.2

/-- What is left of a safe program is safe. -/
theorem Safe.reaches {post : Except ε α → σ → Prop} {p q : Program Op Answer ε α} {s t : σ}
    {n : Nat} (safe : p.Safe performs holds post s) (reaches : p.Reaches performs n s q t) :
    q.Safe performs holds post t := by
  induction reaches with
  | here p s => exact safe
  | next done _ ih => exact ih (safe.next done)

/-- What holds at the end may be weakened. -/
theorem Safe.mono {post post' : Except ε α → σ → Prop} {p : Program Op Answer ε α} {s : σ}
    (safe : p.Safe performs holds post s)
    (weaker : ∀ result t, holds t → post result t → post' result t) :
    p.Safe performs holds post' s := by
  induction p generalizing s with
  | ret value => exact ⟨safe.1, weaker _ _ safe.1 safe.2⟩
  | fail error => exact ⟨safe.1, weaker _ _ safe.1 safe.2⟩
  | perform op next ih => exact ⟨safe.1, fun answer t done => ih answer (safe.2 answer t done)⟩

/-- What holds on the way may be weakened. -/
theorem Safe.weaken {holds' : σ → Prop} {post : Except ε α → σ → Prop}
    {p : Program Op Answer ε α} {s : σ} (safe : p.Safe performs holds post s)
    (weaker : ∀ t, holds t → holds' t) : p.Safe performs holds' post s := by
  induction p generalizing s with
  | ret value => exact ⟨weaker s safe.1, safe.2⟩
  | fail error => exact ⟨weaker s safe.1, safe.2⟩
  | perform op next ih =>
    exact ⟨weaker s safe.1, fun answer t done => ih answer (safe.2 answer t done)⟩

/-- A sequence is safe if its second part is, wherever the first one ends. -/
theorem Safe.bind {post : Except ε β → σ → Prop} {p : Program Op Answer ε α}
    {f : α → Program Op Answer ε β} {s : σ}
    (safe : p.Safe performs holds (fun result t => match result with
      | .ok value => (f value).Safe performs holds post t
      | .error error => post (.error error) t) s) :
    (p >>= f).Safe performs holds post s := by
  induction p generalizing s with
  | ret value => exact safe.2
  | fail error => exact safe
  | perform op next ih => exact ⟨safe.1, fun answer t done => ih answer (safe.2 answer t done)⟩

/-- A sequence is safe if its second part is, wherever the first one returns. -/
theorem Safe.andThen {returns : α → σ → Prop} {p : Program Op Answer ε α}
    {f : α → Program Op Answer ε β} {s : σ}
    (safe : p.Safe performs holds (fun result t => ∀ value, result = .ok value → returns value t) s)
    (rest : ∀ value t, returns value t → (f value).Safe performs holds (fun _ _ => True) t) :
    (p >>= f).Safe performs holds (fun _ _ => True) s := by
  refine Safe.bind (safe.mono ?_)
  rintro (fault | value) t - expected
  · trivial
  · exact rest value t (expected value rfl)

/-- An attempt ends where the program ends. -/
theorem Safe.attempt {post : Except ε (Except ε α) → σ → Prop} {p : Program Op Answer ε α} {s : σ}
    (safe : p.Safe performs holds (fun result t => post (.ok result) t) s) :
    p.attempt.Safe performs holds post s := by
  induction p generalizing s with
  | ret value => exact safe
  | fail error => exact safe
  | perform op next ih => exact ⟨safe.1, fun answer t done => ih answer (safe.2 answer t done)⟩

/-- Rewriting errors changes no state. -/
theorem Safe.mapError {f : ε → ε} {post : Except ε α → σ → Prop} {p : Program Op Answer ε α}
    {s : σ} (safe : p.Safe performs holds (fun result t => post (result.mapError f) t) s) :
    (p.mapError f).Safe performs holds post s := by
  induction p generalizing s with
  | ret value => exact safe
  | fail error => exact safe
  | perform op next ih => exact ⟨safe.1, fun answer t done => ih answer (safe.2 answer t done)⟩

/-- A computation without operations stays where it is. -/
theorem Safe.ofExcept {post : Except ε α → σ → Prop} {result : Except ε α} {s : σ} (here : holds s)
    (ends : post result s) : (ofExcept result).Safe performs holds post s := by
  cases result <;> exact ⟨here, ends⟩

/-- A program is safe if all operations it may perform keep a property that implies what is to
hold on the way. -/
theorem Safe.of_uses {allowed : Op → Prop} {kept : σ → Prop} {p : Program Op Answer ε α} {s : σ}
    (uses : p.Uses allowed)
    (keeps : ∀ op, allowed op → ∀ s answer t, kept s → performs op s answer t → kept t)
    (implies : ∀ s, kept s → holds s) (here : kept s) :
    p.Safe performs holds (fun _ t => kept t) s := by
  induction p generalizing s with
  | ret value => exact ⟨implies s here, here⟩
  | fail error => exact ⟨implies s here, here⟩
  | perform op next ih =>
    exact ⟨implies s here, fun answer t done =>
      ih answer (uses.2 answer) (keeps op uses.1 s answer t here done)⟩

/-! ## Programs that keep a property -/

/-- From every state in which a property holds, it holds in every state that the program
reaches, and what the program returns meets an expectation. -/
def Keeps (performs : (op : Op) → σ → Answer op → σ → Prop) (holds : σ → Prop)
    (returns : α → Prop) (p : Program Op Answer ε α) : Prop :=
  ∀ s, holds s →
    p.Safe performs holds (fun result _ => ∀ value, result = .ok value → returns value) s

variable {returns : α → Prop} {p : Program Op Answer ε α}

/-- A returned value stays where it is. -/
theorem keeps_ret {value : α} (expected : returns value) :
    (ret value : Program Op Answer ε α).Keeps performs holds returns := by
  intro s here
  refine ⟨here, fun value' same => ?_⟩
  obtain rfl := Except.ok.inj same
  exact expected

/-- A failure stays where it is. -/
theorem keeps_fail (error : ε) :
    (fail error : Program Op Answer ε α).Keeps performs holds returns :=
  fun _ here => ⟨here, fun _ same => nomatch same⟩

/-- An operation keeps what each of its outcomes keeps. -/
theorem keeps_perform {op : Op} {next : Answer op → Program Op Answer ε α}
    (one : ∀ s answer t, holds s → performs op s answer t → holds t)
    (rest : ∀ answer, (next answer).Keeps performs holds returns) :
    (perform op next).Keeps performs holds returns :=
  fun s here => ⟨here, fun answer t done => rest answer t (one s answer t here done)⟩

/-- A computation without operations keeps everything. -/
theorem keeps_ofExcept {result : Except ε α}
    (expected : ∀ value, result = .ok value → returns value) :
    (ofExcept result : Program Op Answer ε α).Keeps performs holds returns :=
  fun _ here => Safe.ofExcept here expected

/-- A sequence keeps what its parts keep. -/
theorem Keeps.bind {returns' : β → Prop} {f : α → Program Op Answer ε β}
    (keeps : p.Keeps performs holds returns)
    (rest : ∀ value, returns value → (f value).Keeps performs holds returns') :
    (p >>= f).Keeps performs holds returns' := by
  refine fun s here => Safe.bind ((keeps s here).mono ?_)
  intro result t there expected
  cases result with
  | ok value => exact rest value (expected value rfl) t there
  | error error => exact fun _ same => nomatch same

/-- Rewriting errors keeps what the program keeps. -/
theorem Keeps.mapError {f : ε → ε} (keeps : p.Keeps performs holds returns) :
    (p.mapError f).Keeps performs holds returns := by
  refine fun s here => Safe.mapError ((keeps s here).mono ?_)
  intro result t _ expected value same
  cases result with
  | ok value' => exact expected value same
  | error error => cases same

/-- An attempt keeps what the program keeps. -/
theorem Keeps.attempt (keeps : p.Keeps performs holds returns) :
    p.attempt.Keeps performs holds (fun result => ∀ value, result = .ok value → returns value) := by
  refine fun s here => Safe.attempt ((keeps s here).mono ?_)
  intro result t _ expected result' same
  obtain rfl := Except.ok.inj same
  exact expected

/-- A program keeps what all operations it may perform keep. -/
theorem keeps_of_uses {allowed : Op → Prop} (uses : p.Uses allowed)
    (keeps : ∀ op, allowed op → ∀ s answer t, holds s → performs op s answer t → holds t) :
    p.Keeps performs holds (fun _ => True) :=
  fun _ here => (Safe.of_uses uses keeps (fun _ held => held) here).mono
    fun _ _ _ _ _ _ => trivial

/-- Behind a program that keeps a property, the rest starts where it holds. -/
theorem Keeps.andThen {kept : σ → Prop} {f : α → Program Op Answer ε β} {s : σ}
    (keeps : p.Keeps performs kept returns) (implies : ∀ t, kept t → holds t) (here : kept s)
    (rest : ∀ value t, kept t → returns value →
      (f value).Safe performs holds (fun _ _ => True) t) :
    (p >>= f).Safe performs holds (fun _ _ => True) s := by
  have stays : p.Safe performs holds
      (fun result t => ∀ value, result = .ok value → kept t ∧ returns value) s :=
    ((keeps s here).mono fun _ _ there expected value same =>
      ⟨there, expected value same⟩).weaken implies
  exact stays.andThen fun value t ⟨there, expected⟩ => rest value t there expected

/-- A program that keeps a property is safe. -/
theorem Keeps.safe (keeps : p.Keeps performs holds returns) {s : σ} (here : holds s) :
    p.Safe performs holds (fun _ _ => True) s :=
  (keeps s here).mono fun _ _ _ _ => trivial

end Safe

/-! ## Programs that trust their answers -/

/-- As long as it is answered as expected, a program performs allowed operations alone, and what it
returns meets an expectation. -/
def Trusts (expected : (op : Op) → Answer op → Prop) (allowed : Op → Prop) (returns : α → Prop) :
    Program Op Answer ε α → Prop
  | ret value => returns value
  | fail _ => True
  | perform op next => allowed op ∧
      ∀ answer, expected op answer → (next answer).Trusts expected allowed returns

section Trusts

variable {expected : (op : Op) → Answer op → Prop} {allowed : Op → Prop} {returns : α → Prop}
  {p : Program Op Answer ε α}

/-- A value is returned without operations. -/
theorem trusts_ret {value : α} (meets : returns value) :
    (ret value : Program Op Answer ε α).Trusts expected allowed returns := meets

/-- A failure performs no operations. -/
theorem trusts_fail (error : ε) :
    (fail error : Program Op Answer ε α).Trusts expected allowed returns := trivial

/-- A program performs its first operation and those behind it. -/
theorem trusts_perform {op : Op} {next : Answer op → Program Op Answer ε α} (first : allowed op)
    (rest : ∀ answer, expected op answer → (next answer).Trusts expected allowed returns) :
    (perform op next).Trusts expected allowed returns := ⟨first, rest⟩

/-- What is left behind an operation. -/
theorem Trusts.next {op : Op} {next : Answer op → Program Op Answer ε α} {answer : Answer op}
    (trusts : (perform op next).Trusts expected allowed returns) (fits : expected op answer) :
    (next answer).Trusts expected allowed returns := trusts.2 answer fits

/-- The first operation is allowed. -/
theorem Trusts.first {op : Op} {next : Answer op → Program Op Answer ε α}
    (trusts : (perform op next).Trusts expected allowed returns) : allowed op := trusts.1

/-- What is returned may be weakened. -/
theorem Trusts.mono {returns' : α → Prop} (trusts : p.Trusts expected allowed returns)
    (weaker : ∀ value, returns value → returns' value) :
    p.Trusts expected allowed returns' := by
  induction p with
  | ret value => exact weaker value trusts
  | fail error => exact trivial
  | perform op next ih =>
    exact ⟨trusts.1, fun answer fits => ih answer (trusts.2 answer fits)⟩

/-- A sequence goes on with what its first part returns. -/
theorem Trusts.bind {returns' : β → Prop} {f : α → Program Op Answer ε β}
    (trusts : p.Trusts expected allowed returns)
    (rest : ∀ value, returns value → (f value).Trusts expected allowed returns') :
    (p >>= f).Trusts expected allowed returns' := by
  induction p with
  | ret value => exact rest value trusts
  | fail error => exact trivial
  | perform op next ih =>
    exact ⟨trusts.1, fun answer fits => ih answer (trusts.2 answer fits)⟩

/-- Errors can be rewritten. -/
theorem Trusts.mapError {f : ε → ε} (trusts : p.Trusts expected allowed returns) :
    (p.mapError f).Trusts expected allowed returns := by
  induction p with
  | ret value => exact trusts
  | fail error => exact trivial
  | perform op next ih =>
    exact ⟨trusts.1, fun answer fits => ih answer (trusts.2 answer fits)⟩

/-- An attempt returns what the program returns, or its error. -/
theorem Trusts.attempt (trusts : p.Trusts expected allowed returns) :
    p.attempt.Trusts expected allowed
      (fun result => ∀ value, result = .ok value → returns value) := by
  induction p with
  | ret value => exact fun _ same => Except.ok.inj same ▸ trusts
  | fail error => exact fun _ same => nomatch same
  | perform op next ih =>
    exact ⟨trusts.1, fun answer fits => ih answer (trusts.2 answer fits)⟩

/-- A value is computed without operations. -/
theorem trusts_ofExcept {result : Except ε α}
    (meets : ∀ value, result = .ok value → returns value) :
    (ofExcept result : Program Op Answer ε α).Trusts expected allowed returns := by
  cases result with
  | ok value => exact meets value rfl
  | error error => exact trivial

/-- A program that performs allowed operations alone need not trust any answer. -/
theorem Uses.trusts {allowed' : Op → Prop} (uses : p.Uses allowed)
    (weaker : ∀ op, allowed op → allowed' op) : p.Trusts expected allowed' (fun _ => True) := by
  induction p with
  | ret value => exact trivial
  | fail error => exact trivial
  | perform op next ih =>
    exact ⟨weaker op uses.1, fun answer _ => ih answer (uses.2 answer)⟩

end Trusts

-- From here on programs are reasoned about by the rules alone.
attribute [irreducible] Uses Safe Trusts

end Program
