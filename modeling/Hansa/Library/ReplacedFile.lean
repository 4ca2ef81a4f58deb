import Mathlib.Data.List.Nodup
import Mathlib.Logic.Function.Basic
import Hansa.Library.Transition

/-!
# A file replaced through a shared temporary file

Calls change one file. Each reads the file, computes its new content, writes that to a
temporary file and renames this to the file; all calls use one name for the temporary file, and
their steps may come in any order. An open file stays the same file under every name, so the
names stand for numbered files. When no call opens the temporary file while another holds it,
and a rename installs what the call would still compute, the calls that succeed have the effect
of one atomic update each, in the order of their renames.
-/

namespace ReplacedFile

variable {ι β ε : Type*}

/-- The content a call computes from that of the file, or its error. -/
abbrev Update (β ε : Type*) := Option (List β) → Except ε (List β)

/-! ## The disk -/

/-- The two names, and the files there are. -/
structure Disk (β : Type*) where
  /-- The file that is replaced, if it exists. -/
  target : Option Nat
  /-- The temporary file, if it exists. -/
  temp : Option Nat
  /-- What each file holds. -/
  content : Nat → List β
  /-- The number of the next file. -/
  fresh : Nat

namespace Disk

/-- What a reader of the file finds. -/
def read (disk : Disk β) : Option (List β) := disk.target.map disk.content

/-- Change what a file holds, whatever its name. -/
def put (disk : Disk β) (file : Nat) (content : List β) : Disk β :=
  { disk with content := Function.update disk.content file content }

/-- Create an empty temporary file. -/
def create (disk : Disk β) : Disk β :=
  { disk.put disk.fresh [] with temp := some disk.fresh, fresh := disk.fresh + 1 }

/-- Rename the temporary file. -/
def rename (disk : Disk β) (file : Nat) : Disk β :=
  { disk with target := some file, temp := none }

/-- The names stand for different files that exist. -/
structure Sound (disk : Disk β) : Prop where
  /-- The file exists. -/
  target : ∀ file ∈ disk.target, file < disk.fresh
  /-- The temporary file exists. -/
  temp : ∀ file ∈ disk.temp, file < disk.fresh
  /-- They are not the same. -/
  apart : ∀ file ∈ disk.target, disk.temp ≠ some file

variable {disk : Disk β}

/-- A new file is a different one. -/
theorem Sound.create (sound : disk.Sound) : disk.create.Sound where
  target file named := Nat.lt_succ_of_lt (sound.target file named)
  temp file named := by
    obtain rfl := Option.some.inj named
    exact Nat.lt_succ_self _
  apart file named same := by
    have below := sound.target file named
    obtain rfl := Option.some.inj same
    exact Nat.lt_irrefl _ below

/-- Content does not matter to the names. -/
theorem Sound.put (sound : disk.Sound) (file : Nat) (content : List β) :
    (disk.put file content).Sound := ⟨sound.target, sound.temp, sound.apart⟩

/-- After a rename one name is left. -/
theorem Sound.rename (sound : disk.Sound) {file : Nat} (named : disk.temp = some file) :
    (disk.rename file).Sound where
  target file' isTarget := by
    obtain rfl := Option.some.inj isTarget
    exact sound.temp _ named
  temp file' isTemp := by cases isTemp
  apart file' _ isTemp := by cases isTemp

/-- Writing to another file does not change the file. -/
theorem read_put {file : Nat} (other : disk.target ≠ some file) (content : List β) :
    (disk.put file content).read = disk.read := by
  cases isTarget : disk.target with
  | none => simp only [read, put, isTarget, Option.map_none]
  | some file' =>
    have different : file' ≠ file := fun same => other (isTarget.trans (congrArg some same))
    simp only [read, put, isTarget, Option.map_some, Function.update_of_ne different]

/-- Creating the temporary file does not change the file. -/
theorem read_create (sound : disk.Sound) : disk.create.read = disk.read :=
  read_put (fun same => Nat.lt_irrefl _ (sound.target _ same)) []

end Disk

/-! ## Calls -/

/-- How far a call has come. -/
inductive Phase (β : Type*) where
  /-- It has not begun. -/
  | idle
  /-- It has read the file, and computed the content to write. -/
  | loaded (new : List β)
  /-- It has opened the temporary file, which is now empty. -/
  | opened (new : List β) (file : Nat)
  /-- It has written the content. -/
  | written (new : List β)
  /-- It has renamed the temporary file. -/
  | succeeded
  /-- It has returned an error. -/
  | failed

/-- The call is between opening the temporary file and renaming it. -/
def Phase.Holds : Phase β → Prop
  | opened .. | written .. => True
  | idle | loaded .. | succeeded | failed => False

/-- The content that a call is about to write, or has written and not yet installed. -/
def Phase.carried : Phase β → Option (List β)
  | loaded new | opened new _ | written new => some new
  | idle | succeeded | failed => none

/-- The disk and all calls. -/
structure State (ι β : Type*) where
  /-- The disk. -/
  disk : Disk β
  /-- How far each call has come. -/
  phase : ι → Phase β

/-- Nothing has begun; a temporary file may be left over. -/
structure State.Start (s : State ι β) : Prop where
  /-- The names are sound. -/
  sound : s.disk.Sound
  /-- No call has begun. -/
  idle : ∀ call, s.phase call = .idle

/-- At most one call holds the temporary file, which holds what that call put there. -/
structure Orderly (s : State ι β) : Prop where
  /-- The names are sound. -/
  sound : s.disk.Sound
  /-- One call holds the temporary file. -/
  single : ∀ call other, (s.phase call).Holds → (s.phase other).Holds → other = call
  /-- The file it opened is the temporary file, and is empty. -/
  opened : ∀ call new file, s.phase call = .opened new file →
    s.disk.temp = some file ∧ s.disk.content file = []
  /-- The content it wrote is in the temporary file. -/
  written : ∀ call new, s.phase call = .written new →
    ∃ file, s.disk.temp = some file ∧ s.disk.content file = new

/-- A state in which nothing has begun is orderly. -/
theorem State.Start.orderly {s : State ι β} (start : s.Start) : Orderly s where
  sound := start.sound
  single call _ holds := by
    rw [start.idle call] at holds
    exact holds.elim
  opened call _ _ opened := by cases (start.idle call).symm.trans opened
  written call _ written := by cases (start.idle call).symm.trans written

/-- The next step of a call. -/
inductive Action (ι : Type*) where
  /-- Read the file and compute. -/
  | load (call : ι)
  /-- Open the temporary file. -/
  | openTemp (call : ι)
  /-- Write the temporary file. -/
  | write (call : ι)
  /-- Rename the temporary file. -/
  | rename (call : ι)

/-- The call that takes the step. -/
def Action.call : Action ι → ι
  | load call | openTemp call | write call | rename call => call

/-- No call has come to a rename since the call read the file. -/
def Current (taken : List (Action ι)) (call : ι) : Prop :=
  ∃ earlier since, taken = earlier ++ .load call :: since ∧ ∀ other, .rename other ∉ since

/-- What the steps so far allow next: a call opens the temporary file when every other call that
opened it has come to its rename, and renames when the file is still the one that it read. -/
def Allowed (taken : List (Action ι)) : Action ι → Prop
  | .openTemp call => ∀ other, other ≠ call → .openTemp other ∈ taken → .rename other ∈ taken
  | .rename call => Current taken call
  | .load _ | .write _ => True

/-- A schedule of steps that are allowed where they stand. -/
def Scheduled (actions : List (Action ι)) : Prop :=
  ∀ before action after, actions = before ++ action :: after → Allowed before action

/-- A schedule without its last step, and that step. -/
theorem Scheduled.of_concat {actions : List (Action ι)} {action : Action ι}
    (scheduled : Scheduled (actions ++ [action])) : Scheduled actions ∧ Allowed actions action := by
  refine ⟨fun before other after split => scheduled before other (after ++ [action]) ?_,
    scheduled actions action [] rfl⟩
  rw [split, List.append_assoc, List.cons_append]

/-- A schedule with one more step. -/
theorem Scheduled.concat {actions : List (Action ι)} {action : Action ι}
    (scheduled : Scheduled actions) (allowed : Allowed actions action) :
    Scheduled (actions ++ [action]) := by
  intro before other after split
  rcases List.eq_nil_or_concat after with rfl | ⟨after', last, rfl⟩
  · obtain ⟨rfl, isLast⟩ := List.append_inj' split rfl
    obtain rfl := List.singleton_inj.mp isLast
    exact allowed
  · rw [List.concat_eq_append, ← List.cons_append, ← List.append_assoc] at split
    exact scheduled before other after' (List.append_inj' split rfl).1

/-- Calls may run one after the other. -/
theorem Scheduled.alone {actions : List (Action ι)} (scheduled : Scheduled actions)
    (closed : ∀ other, .openTemp other ∈ actions → .rename other ∈ actions) (call : ι) :
    Scheduled (actions ++ [.load call, .openTemp call, .write call, .rename call]) := by
  have loaded := scheduled.concat (show Allowed actions (.load call) from trivial)
  have closedYet : Allowed (actions ++ [.load call]) (.openTemp call) := fun other _ member => by
    simpa using closed other (by simpa using member)
  have opened := loaded.concat closedYet
  have written := opened.concat (show Allowed _ (.write call) from trivial)
  have current : Allowed (actions ++ [.load call] ++ [.openTemp call] ++ [.write call])
      (.rename call) :=
    ⟨actions, [.openTemp call, .write call], by simp, by simp⟩
  have renamed := written.concat current
  simpa using renamed

/-- A step that is not the call's own reading comes after it, and is no rename. -/
theorem Current.of_concat {taken : List (Action ι)} {action : Action ι} {call : ι}
    (current : Current (taken ++ [action]) call) (other : action ≠ .load call) :
    Current taken call ∧ action ≠ .rename action.call := by
  obtain ⟨earlier, since, split, quiet⟩ := current
  rcases List.eq_nil_or_concat since with rfl | ⟨since', last, rfl⟩
  · exact absurd (List.append_inj' split rfl).2 (by simpa using other)
  · rw [List.concat_eq_append, ← List.cons_append, ← List.append_assoc] at split
    obtain ⟨isTaken, isLast⟩ := List.append_inj' split rfl
    obtain rfl := List.singleton_inj.mp isLast
    refine ⟨⟨earlier, since', isTaken, fun other member => quiet other (by simp [member])⟩, ?_⟩
    intro renames
    exact quiet action.call (by simp [← renames])

variable [DecidableEq ι]

/-- A call comes to another phase. -/
def State.move (s : State ι β) (call : ι) (phase : Phase β) (disk : Disk β) : State ι β :=
  ⟨disk, Function.update s.phase call phase⟩

/-- One step of one call. -/
inductive Step (update : ι → Update β ε) (s : State ι β) : Action ι → State ι β → Prop where
  /-- The call reads, and computes what to write. -/
  | load {call : ι} {new : List β} (idle : s.phase call = .idle)
      (computes : update call s.disk.read = .ok new) :
      Step update s (.load call) (s.move call (.loaded new) s.disk)
  /-- The call reads, and returns an error. -/
  | refuse {call : ι} {e : ε} (idle : s.phase call = .idle)
      (refuses : update call s.disk.read = .error e) :
      Step update s (.load call) (s.move call .failed s.disk)
  /-- There is no temporary file, so one is created. -/
  | create {call : ι} {new : List β} (loaded : s.phase call = .loaded new)
      (absent : s.disk.temp = none) :
      Step update s (.openTemp call) (s.move call (.opened new s.disk.fresh) s.disk.create)
  /-- The temporary file is emptied. -/
  | truncate {call : ι} {new : List β} {file : Nat} (loaded : s.phase call = .loaded new)
      (present : s.disk.temp = some file) :
      Step update s (.openTemp call) (s.move call (.opened new file) (s.disk.put file []))
  /-- The content is written over the start of the file that was opened. -/
  | write {call : ι} {new : List β} {file : Nat} (opened : s.phase call = .opened new file) :
      Step update s (.write call) (s.move call (.written new)
        (s.disk.put file (new ++ (s.disk.content file).drop new.length)))
  /-- The temporary file, whoever wrote it, becomes the file. -/
  | rename {call : ι} {new : List β} {file : Nat} (written : s.phase call = .written new)
      (present : s.disk.temp = some file) :
      Step update s (.rename call) (s.move call .succeeded (s.disk.rename file))
  /-- Another call has renamed the temporary file. -/
  | vanished {call : ι} {new : List β} (written : s.phase call = .written new)
      (absent : s.disk.temp = none) :
      Step update s (.rename call) (s.move call .failed s.disk)

/-- A step that does not disturb the other calls. -/
def Unraced (update : ι → Update β ε) (s : State ι β) : Action ι → Prop
  | .openTemp call => ∀ other, (s.phase other).Holds → other = call
  | .rename call => ∀ new, s.phase call = .written new → update call s.disk.read = .ok new
  | .load _ | .write _ => True

/-- One step that does not disturb the other calls. -/
def UnracedStep (update : ι → Update β ε) (s : State ι β) (action : Action ι) (t : State ι β) :
    Prop := Unraced update s action ∧ Step update s action t

/-- One call takes effect at once. -/
def Atomic (update : ι → Update β ε) (before : Option (List β)) (call : ι)
    (after : Option (List β)) : Prop := ∃ new, update call before = .ok new ∧ after = some new

/-! ## What unraced steps keep -/

/-- The phase of the call that moved. -/
@[simp] theorem phase_move_self (s : State ι β) (call : ι) (phase : Phase β) (disk : Disk β) :
    (s.move call phase disk).phase call = phase := Function.update_self ..

/-- The phases of the other calls. -/
theorem phase_move_of_ne (s : State ι β) {call other : ι} (different : other ≠ call)
    (phase : Phase β) (disk : Disk β) : (s.move call phase disk).phase other = s.phase other :=
  Function.update_of_ne different ..

variable {update : ι → Update β ε} {s t : State ι β}

/-- A call that does not come to hold the temporary file may move. -/
theorem Orderly.move (orderly : Orderly s) (call : ι) {phase : Phase β} (free : ¬ phase.Holds) :
    Orderly (s.move call phase s.disk) := by
  have kept : ∀ other, ((s.move call phase s.disk).phase other).Holds →
      (s.move call phase s.disk).phase other = s.phase other := by
    intro other holds
    refine phase_move_of_ne s ?_ phase s.disk
    rintro rfl
    rw [phase_move_self] at holds
    exact free holds
  constructor
  · exact orderly.sound
  · intro one other holds holds'
    rw [kept one holds] at holds
    rw [kept other holds'] at holds'
    exact orderly.single one other holds holds'
  · intro other new file opened
    have holds : ((s.move call phase s.disk).phase other).Holds := by
      rw [opened]
      trivial
    exact orderly.opened other new file ((kept other holds).symm.trans opened)
  · intro other new written
    have holds : ((s.move call phase s.disk).phase other).Holds := by
      rw [written]
      trivial
    exact orderly.written other new ((kept other holds).symm.trans written)

/-- The only call that holds the temporary file may change the disk. -/
theorem orderly_of_alone {call : ι} {phase : Phase β} {disk : Disk β} (sound : disk.Sound)
    (alone : ∀ other, (s.phase other).Holds → other = call)
    (opened : ∀ new file, phase = .opened new file →
      disk.temp = some file ∧ disk.content file = [])
    (written : ∀ new, phase = .written new →
      ∃ file, disk.temp = some file ∧ disk.content file = new) :
    Orderly (s.move call phase disk) := by
  have only : ∀ other, ((s.move call phase disk).phase other).Holds → other = call := by
    intro other holds
    by_contra different
    rw [phase_move_of_ne s different] at holds
    exact different (alone other holds)
  constructor
  · exact sound
  · exact fun one other holds holds' => (only other holds').trans (only one holds).symm
  · intro other new file isOpened
    obtain rfl := only other (by rw [isOpened]; trivial)
    exact opened new file ((phase_move_self ..).symm.trans isOpened)
  · intro other new isWritten
    obtain rfl := only other (by rw [isWritten]; trivial)
    exact written new ((phase_move_self ..).symm.trans isWritten)

/-- What changed: nothing that a reader or a finished call sees, or one call took effect. -/
inductive Effect (update : ι → Update β ε) (s t : State ι β) : Prop where
  /-- The file and the calls that succeeded are the same. -/
  | none (same : t.disk.read = s.disk.read)
      (succeeded : ∀ call, t.phase call = .succeeded ↔ s.phase call = .succeeded)
  /-- One more call succeeded, and replaced the file. -/
  | one {call : ι} (atomic : Atomic update s.disk.read call t.disk.read)
      (before : s.phase call ≠ .succeeded)
      (succeeded : ∀ other, t.phase other = .succeeded ↔ s.phase other = .succeeded ∨ other = call)

/-- A call that neither had succeeded nor succeeds leaves the same calls succeeded. -/
theorem succeeded_move {call : ι} {phase : Phase β} {disk : Disk β}
    (before : s.phase call ≠ .succeeded) (after : phase ≠ .succeeded) (other : ι) :
    (s.move call phase disk).phase other = .succeeded ↔ s.phase other = .succeeded := by
  by_cases same : other = call
  · subst same
    rw [phase_move_self]
    exact ⟨fun is => absurd is after, fun is => absurd is before⟩
  · rw [phase_move_of_ne s same]

/-- An unraced step keeps the order. -/
theorem UnracedStep.orderly {action : Action ι} (orderly : Orderly s)
    (step : UnracedStep update s action t) : Orderly t := by
  obtain ⟨unraced, step⟩ := step
  cases step with
  | load idle computes => exact orderly.move _ id
  | refuse idle refuses => exact orderly.move _ id
  | create loaded absent =>
    refine orderly_of_alone orderly.sound.create unraced ?_ (fun _ written => by cases written)
    rintro _ _ ⟨⟩
    exact ⟨rfl, Function.update_self ..⟩
  | truncate loaded present =>
    refine orderly_of_alone (orderly.sound.put _ _) unraced ?_ (fun _ written => by cases written)
    rintro _ _ ⟨⟩
    exact ⟨present, Function.update_self ..⟩
  | @write call new file opened =>
    obtain ⟨isTemp, empty⟩ := orderly.opened _ _ _ opened
    have holds : (s.phase call).Holds := by
      rw [opened]
      trivial
    refine orderly_of_alone (orderly.sound.put _ _) (fun other => orderly.single call other holds)
      (fun _ _ opened => by cases opened) ?_
    rintro _ ⟨⟩
    refine ⟨file, isTemp, ?_⟩
    rw [empty, List.drop_nil, List.append_nil]
    exact Function.update_self ..
  | @rename call new file written present =>
    have holds : (s.phase call).Holds := by
      rw [written]
      trivial
    exact orderly_of_alone (orderly.sound.rename present)
      (fun other => orderly.single call other holds)
      (fun _ _ opened => by cases opened) (fun _ written => by cases written)
  | vanished written absent => exact orderly.move _ id

/-- Only a rename changes what a reader finds. -/
theorem read_of_step {action : Action ι} (orderly : Orderly s) (step : Step update s action t)
    (other : action ≠ .rename action.call) : t.disk.read = s.disk.read := by
  -- The temporary file is not the file, so writing it changes nothing for readers.
  have aside : ∀ file, s.disk.temp = some file → s.disk.target ≠ some file :=
    fun file isTemp isTarget => orderly.sound.apart file isTarget isTemp
  cases step with
  | load | refuse => rfl
  | create loaded absent => exact Disk.read_create orderly.sound
  | truncate loaded present => exact Disk.read_put (aside _ present) []
  | write opened => exact Disk.read_put (aside _ (orderly.opened _ _ _ opened).1) _
  | rename | vanished => exact absurd rfl other

/-- An unraced step has an effect on one call at most. -/
theorem UnracedStep.effect {action : Action ι} (orderly : Orderly s)
    (step : UnracedStep update s action t) : Effect update s t := by
  obtain ⟨unraced, step⟩ := step
  have same := read_of_step orderly step
  cases step with
  | load idle computes | refuse idle refuses =>
    exact .none rfl (succeeded_move (by simp [idle]) (fun is => by cases is))
  | create loaded absent | truncate loaded present =>
    exact .none (same (fun is => by cases is))
      (succeeded_move (by simp [loaded]) (fun is => by cases is))
  | write opened =>
    exact .none (same (fun is => by cases is))
      (succeeded_move (by simp [opened]) (fun is => by cases is))
  | @rename call new file written present =>
    obtain ⟨file', isTemp, content⟩ := orderly.written _ _ written
    obtain rfl := Option.some.inj (present.symm.trans isTemp)
    refine .one ⟨new, unraced new written, congrArg some content⟩ (by simp [written]) ?_
    intro other
    by_cases same : other = call
    · subst same
      simp
    · rw [phase_move_of_ne s same]
      simp [same]
  | vanished written absent =>
    exact .none rfl (succeeded_move (by simp [written]) (fun is => by cases is))

/-- A call fails in an unraced step only where its update fails. -/
theorem UnracedStep.failed {action : Action ι} (orderly : Orderly s)
    (step : UnracedStep update s action t) {call : ι} (failed : t.phase call = .failed) :
    s.phase call = .failed ∨ ∃ e, update call s.disk.read = .error e := by
  obtain ⟨-, step⟩ := step
  have other : ∀ {moved : ι} {phase : Phase β} {disk : Disk β}, phase ≠ .failed →
      (s.move moved phase disk).phase call = .failed → s.phase call = .failed := by
    intro moved phase disk fine failed
    by_cases same : call = moved
    · subst same
      rw [phase_move_self] at failed
      exact absurd failed fine
    · rwa [phase_move_of_ne s same] at failed
  cases step with
  | load | create | truncate | write | rename => exact .inl (other (fun is => by cases is) failed)
  | @refuse moved e idle refuses =>
    by_cases same : call = moved
    · subst same
      exact .inr ⟨e, refuses⟩
    · rw [phase_move_of_ne s same] at failed
      exact .inl failed
  | vanished written absent =>
    obtain ⟨file, isTemp, -⟩ := orderly.written _ _ written
    cases absent.symm.trans isTemp

/-! ## Runs -/

/-- A run of steps that do not disturb the other calls. -/
abbrev UnracedRun (update : ι → Update β ε) (start : State ι β) (actions : List (Action ι))
    (last : State ι β) : Prop := Run (UnracedStep update) start actions last

variable {start last : State ι β} {actions : List (Action ι)}

/-- An unraced run keeps the order. -/
theorem orderly_of_run (starts : start.Start) (run : UnracedRun update start actions last) :
    Orderly last :=
  run.invariant Orderly starts.orderly fun _ _ _ orderly step => step.orderly orderly

/-- In an unraced run the calls that succeeded took effect one after another, each at once. -/
theorem serializable (starts : start.Start) (run : UnracedRun update start actions last) :
    ∃ order : List ι, order.Nodup ∧ (∀ call, call ∈ order ↔ last.phase call = .succeeded) ∧
      Run (Atomic update) start.disk.read order last.disk.read := by
  induction run with
  | nil =>
    refine ⟨[], List.nodup_nil, fun call => ?_, .nil⟩
    rw [starts.idle call]
    exact iff_of_false List.not_mem_nil (fun is => by cases is)
  | concat before step ih =>
    obtain ⟨order, nodup, members, serial⟩ := ih
    cases step.effect (orderly_of_run starts before) with
    | none same succeeded =>
      exact ⟨order, nodup, fun call => (members call).trans (succeeded call).symm, same ▸ serial⟩
    | @one call atomic new succeeded =>
      refine ⟨order ++ [call], ?_, fun other => ?_, serial.concat atomic⟩
      · have absent : call ∉ order := fun member => new ((members call).mp member)
        exact List.nodup_append_comm.mp (List.nodup_cons.mpr ⟨absent, nodup⟩)
      · rw [List.mem_append, List.mem_singleton, members, succeeded]

/-- In an unraced run only a call whose update failed has failed. -/
theorem failed_of_run (starts : start.Start) (run : UnracedRun update start actions last)
    {call : ι} (failed : last.phase call = .failed) :
    ∃ taken mid e, UnracedRun update start taken mid ∧ update call mid.disk.read = .error e := by
  induction run with
  | nil => cases (starts.idle call).symm.trans failed
  | concat before step ih =>
    rcases step.failed (orderly_of_run starts before) failed with earlier | ⟨e, refuses⟩
    · exact ih earlier
    · exact ⟨_, _, e, before, refuses⟩

/-! ## Runs by a schedule -/

/-- A step leaves the other calls where they are. -/
theorem phase_of_step {action : Action ι} (step : Step update s action t) {call : ι}
    (other : call ≠ action.call) : t.phase call = s.phase call := by
  cases step <;> exact phase_move_of_ne s other _ _

/-- A call that holds the temporary file has opened it, and one that has come to its rename is
done. -/
theorem holds_of_run (starts : start.Start) (run : Run (Step update) start actions last)
    (call : ι) : ((last.phase call).Holds → .openTemp call ∈ actions) ∧
      (.rename call ∈ actions → last.phase call = .succeeded ∨ last.phase call = .failed) := by
  induction run with
  | nil =>
    rw [starts.idle call]
    exact ⟨False.elim, fun member => absurd member List.not_mem_nil⟩
  | @concat taken action s t before step ih =>
    obtain ⟨opened, done⟩ := ih
    by_cases other : call ≠ action.call
    · rw [phase_of_step step other]
      refine ⟨fun holds => List.mem_append_left _ (opened holds), fun member => done ?_⟩
      rcases List.mem_append.mp member with earlier | isLast
      · exact earlier
      · exact absurd (congrArg Action.call (List.mem_singleton.mp isLast)) other
    obtain rfl := not_not.mp other
    -- A call that is not done has not come to its rename.
    have early : ∀ phase, s.phase action.call = phase → phase ≠ .succeeded → phase ≠ .failed →
        .rename action.call ∉ taken := by
      rintro _ rfl unfinished fine member
      rcases done member with is | is
      · exact unfinished is
      · exact fine is
    have last : ∀ {step : Action ι}, step ≠ .rename step.call → .rename step.call ∉ taken →
        .rename step.call ∉ taken ++ [step] := by
      intro step otherStep absent member
      rcases List.mem_append.mp member with earlier | isLast
      · exact absent earlier
      · exact otherStep (List.mem_singleton.mp isLast).symm
    cases step with
    | load idle computes =>
      have absent := early _ idle (fun is => by cases is) (fun is => by cases is)
      rw [Action.call, phase_move_self]
      exact ⟨False.elim, fun member => absurd member (last (fun is => by cases is) absent)⟩
    | refuse idle refuses =>
      rw [Action.call, phase_move_self]
      exact ⟨False.elim, fun _ => .inr rfl⟩
    | create loaded missing | truncate loaded present =>
      have absent := early _ loaded (fun is => by cases is) (fun is => by cases is)
      rw [Action.call, phase_move_self]
      exact ⟨fun _ => List.mem_append_right _ (List.mem_singleton_self _),
        fun member => absurd member (last (fun is => by cases is) absent)⟩
    | @write call new file isOpened =>
      have absent := early _ isOpened (fun is => by cases is) (fun is => by cases is)
      have holds : (s.phase call).Holds := by
        rw [isOpened]
        trivial
      rw [Action.call, phase_move_self]
      exact ⟨fun _ => List.mem_append_left _ (opened holds),
        fun member => absurd member (last (fun is => by cases is) absent)⟩
    | rename written present =>
      rw [Action.call, phase_move_self]
      exact ⟨False.elim, fun _ => .inl rfl⟩
    | vanished written absent =>
      rw [Action.call, phase_move_self]
      exact ⟨False.elim, fun _ => .inr rfl⟩

/-- What a call carries is what it carried before, or what it has just computed. -/
theorem carried_of_step {action : Action ι} (step : Step update s action t) {call : ι}
    {new : List β} (carries : (t.phase call).carried = some new) :
    (s.phase call).carried = some new ∧ action ≠ .load call ∨
      t.disk = s.disk ∧ update call s.disk.read = .ok new := by
  by_cases other : call ≠ action.call
  · rw [phase_of_step step other] at carries
    exact .inl ⟨carries, fun is => other (congrArg Action.call is).symm⟩
  obtain rfl := not_not.mp other
  cases step with
  | load idle computes =>
    rw [Action.call, phase_move_self] at carries
    obtain rfl := Option.some.inj carries
    exact .inr ⟨rfl, computes⟩
  | create loaded absent | truncate loaded present =>
    rw [Action.call, phase_move_self] at carries
    rw [Action.call, loaded]
    exact .inl ⟨carries, fun is => by cases is⟩
  | write opened =>
    rw [Action.call, phase_move_self] at carries
    rw [Action.call, opened]
    exact .inl ⟨carries, fun is => by cases is⟩
  | refuse | rename | vanished =>
    rw [Action.call, phase_move_self] at carries
    cases carries

/-- A step that is allowed is unraced, if calls whose file is current carry what they would
compute again. -/
theorem unraced_of_allowed (starts : start.Start) (run : Run (Step update) start actions s)
    (computes : ∀ call new, (s.phase call).carried = some new → Current actions call →
      update call s.disk.read = .ok new) {action : Action ι} (allowed : Allowed actions action) :
    Unraced update s action := by
  cases action with
  | load call | write call => trivial
  | openTemp call =>
    intro other holds
    by_contra different
    obtain ⟨opened, done⟩ := holds_of_run starts run other
    rcases done (allowed other different (opened holds)) with is | is
    · rw [is] at holds
      exact holds
    · rw [is] at holds
      exact holds
  | rename call =>
    intro new written
    exact computes call new (by rw [written]; rfl) allowed

/-- A run by a schedule is unraced, and calls whose file is current carry what they would compute
again. -/
theorem unraced_of_scheduled (starts : start.Start) (run : Run (Step update) start actions last)
    (scheduled : Scheduled actions) : UnracedRun update start actions last ∧
      ∀ call new, (last.phase call).carried = some new → Current actions call →
        update call last.disk.read = .ok new := by
  induction run with
  | nil =>
    refine ⟨.nil, fun call new carries => ?_⟩
    rw [starts.idle call] at carries
    cases carries
  | concat before step ih =>
    obtain ⟨earlier, allowed⟩ := scheduled.of_concat
    obtain ⟨unraced, computes⟩ := ih earlier
    refine ⟨unraced.concat ⟨unraced_of_allowed starts before computes allowed, step⟩,
      fun call new carries current => ?_⟩
    rcases carried_of_step step carries with ⟨carried, other⟩ | ⟨same, computed⟩
    · obtain ⟨current', quiet⟩ := current.of_concat other
      rw [read_of_step (orderly_of_run starts unraced) step quiet]
      exact computes call new carried current'
    · rwa [same]

/-- The second part of a run by a schedule is unraced like the first. -/
theorem unraced_append (starts : start.Start) {mid : State ι β} {more : List (Action ι)}
    (run : Run (Step update) start actions mid) (later : Run (Step update) mid more last)
    (scheduled : Scheduled (actions ++ more)) :
    UnracedRun update start actions mid ∧ UnracedRun update mid more last := by
  induction later with
  | nil =>
    rw [List.append_nil] at scheduled
    exact ⟨(unraced_of_scheduled starts run scheduled).1, .nil⟩
  | concat before step ih =>
    rw [← List.append_assoc] at scheduled
    obtain ⟨earlier, allowed⟩ := scheduled.of_concat
    obtain ⟨first, second⟩ := ih earlier
    have between := run.append before
    have computes := (unraced_of_scheduled starts between earlier).2
    exact ⟨first, second.concat ⟨unraced_of_allowed starts between computes allowed, step⟩⟩

/-! ## A call that is not interrupted -/

/-- The temporary file can be opened, whether or not one is there. -/
theorem exists_opened (update : ι → Update β ε) {call : ι} {new : List β} (orderly : Orderly s)
    (loaded : s.phase call = .loaded new) : ∃ file disk,
      Step update s (.openTemp call) (s.move call (.opened new file) disk) ∧
      disk.Sound ∧ disk.read = s.disk.read ∧ disk.temp = some file ∧ disk.content file = [] := by
  cases isTemp : s.disk.temp with
  | none => exact ⟨_, _, .create loaded isTemp, orderly.sound.create,
      Disk.read_create orderly.sound, rfl, Function.update_self ..⟩
  | some file =>
    have aside : s.disk.target ≠ some file :=
      fun isTarget => orderly.sound.apart file isTarget isTemp
    exact ⟨_, _, .truncate loaded isTemp, orderly.sound.put _ _, Disk.read_put aside [], isTemp,
      Function.update_self ..⟩

/-- A call that has read the file and is not interrupted from then on replaces the file; this
is unraced when the file is still as it was read. -/
theorem exists_finished {call : ι} {new : List β} (orderly : Orderly s)
    (free : ∀ other, ¬ (s.phase other).Holds) (loaded : s.phase call = .loaded new) :
    ∃ t, Run (Step update) s [.openTemp call, .write call, .rename call] t ∧
      (update call s.disk.read = .ok new →
        UnracedRun update s [.openTemp call, .write call, .rename call] t) ∧
      Orderly t ∧ t.disk.read = some new ∧ t.phase call = .succeeded ∧
      ∀ other, other ≠ call → t.phase other = s.phase other := by
  obtain ⟨file, disk, opens, sound, same, isTemp, empty⟩ := exists_opened update orderly loaded
  set opened := s.move call (.opened new file) disk
  have writes : Step update opened (.write call) (opened.move call (.written new)
      (disk.put file (new ++ (disk.content file).drop new.length))) :=
    .write (phase_move_self ..)
  rw [empty, List.drop_nil, List.append_nil] at writes
  set written := opened.move call (.written new) (disk.put file new)
  have renames : Step update written (.rename call)
      (written.move call .succeeded ((disk.put file new).rename file)) :=
    .rename (phase_move_self ..) isTemp
  have others : ∀ other, other ≠ call → ∀ phase disk',
      (written.move call phase disk').phase other = s.phase other := by
    intro other different phase disk'
    rw [phase_move_of_ne _ different, phase_move_of_ne _ different, phase_move_of_ne _ different]
  refine ⟨_, ((Run.nil.concat opens).concat writes).concat renames, fun current => ?_, ?_,
    congrArg some (Function.update_self ..), phase_move_self .., fun other different =>
      others other different _ _⟩
  · have unchanged : written.disk.read = s.disk.read :=
      (Disk.read_put (fun isTarget => sound.apart file isTarget isTemp) new).trans same
    refine ((Run.nil.concat ⟨fun other holds => absurd holds (free other), opens⟩).concat
      ⟨trivial, writes⟩).concat ⟨fun new' isWritten => ?_, renames⟩
    obtain rfl := Phase.written.inj ((phase_move_self ..).symm.trans isWritten)
    rw [unchanged]
    exact current
  · refine orderly_of_alone ((sound.put file new).rename isTemp) (fun other holds => ?_)
      (fun _ _ is => by cases is) (fun _ is => by cases is)
    by_contra different
    rw [phase_move_of_ne _ different, phase_move_of_ne _ different] at holds
    exact free other holds

/-- A call that runs alone takes effect. -/
theorem exists_alone {call : ι} {new : List β} (orderly : Orderly s)
    (free : ∀ other, ¬ (s.phase other).Holds) (idle : s.phase call = .idle)
    (computes : update call s.disk.read = .ok new) :
    ∃ t, UnracedRun update s [.load call, .openTemp call, .write call, .rename call] t ∧
      t.disk.read = some new ∧ t.phase call = .succeeded ∧
      ∀ other, other ≠ call → t.phase other = s.phase other := by
  have loads : UnracedStep update s (.load call) (s.move call (.loaded new) s.disk) :=
    ⟨trivial, .load idle computes⟩
  have free' : ∀ other, ¬ ((s.move call (.loaded new) s.disk).phase other).Holds := by
    intro other
    by_cases same : other = call
    · subst same
      rw [phase_move_self]
      exact id
    · rw [phase_move_of_ne s same]
      exact free other
  obtain ⟨t, -, unraced, -, replaced, succeeded, others⟩ :=
    exists_finished (loads.orderly orderly) free' (phase_move_self ..)
  refine ⟨t, (Run.nil.concat loads).append (unraced computes), replaced, succeeded, ?_⟩
  intro other different
  rw [others other different, phase_move_of_ne s different]

/-! ## Two calls that overlap -/

/-- No file, and no call begun. -/
def State.empty (ι β : Type*) : State ι β := ⟨⟨none, none, fun _ => [], 0⟩, fun _ => .idle⟩

/-- The empty state is a start. -/
theorem State.start_empty {ι β : Type*} : (State.empty ι β).Start where
  sound :=
    { target := fun _ named => absurd named (Option.not_mem_none _)
      temp := fun _ named => absurd named (Option.not_mem_none _)
      apart := fun _ named => absurd named (Option.not_mem_none _) }
  idle _ := rfl

/-- Two calls that take turns both take effect. -/
theorem exists_in_turn {first second : ι} {new new' : List β} (different : first ≠ second)
    (computes : update first none = .ok new) (computes' : update second (some new) = .ok new') :
    ∃ actions more mid last, UnracedRun update (State.empty ι β) actions mid ∧
      UnracedRun update mid more last ∧ Scheduled (actions ++ more) ∧
      mid.disk.read = some new ∧ mid.phase first = .succeeded ∧
      last.disk.read = some new' ∧ last.phase second = .succeeded ∧
      ∀ other, other ≠ second → last.phase other = mid.phase other := by
  obtain ⟨mid, run, held, succeeded, others⟩ :=
    exists_alone State.start_empty.orderly (fun _ => id) rfl computes
  have free : ∀ other, ¬ (mid.phase other).Holds := by
    intro other
    by_cases isFirst : other = first
    · subst isFirst
      rw [succeeded]
      exact id
    · rw [others other isFirst]
      exact id
  obtain ⟨last, later, held', succeeded', others'⟩ :=
    exists_alone (orderly_of_run State.start_empty run) free (others second different.symm)
      (held ▸ computes')
  have scheduled : Scheduled (([] : List (Action ι)) ++
      [.load first, .openTemp first, .write first, .rename first]) :=
    Scheduled.alone (fun before action after split => by simp at split) (by simp) first
  exact ⟨_, _, mid, last, run, later, scheduled.alone (by simp) second, held, succeeded, held',
    succeeded', others'⟩

/-- Two calls that both read the absent file before either replaces it: both succeed, and the
second leaves what it computed without the first. -/
theorem exists_overlap {first second : ι} {new new' : List β} (different : first ≠ second)
    (computes : update first none = .ok new) (computes' : update second none = .ok new') :
    ∃ actions more mid last,
      Run (Step update) (State.empty ι β) actions mid ∧ Run (Step update) mid more last ∧
      mid.disk.read = some new ∧ mid.phase first = .succeeded ∧ mid.phase second ≠ .succeeded ∧
      last.disk.read = some new' ∧ last.phase second = .succeeded ∧
      ∀ other, other ≠ second → last.phase other = mid.phase other := by
  have loads : Step update (State.empty ι β) (.load first)
      ((State.empty ι β).move first (.loaded new) _) := .load rfl computes
  set one := (State.empty ι β).move first (.loaded new) (State.empty ι β).disk
  have idle : one.phase second = .idle := phase_move_of_ne _ different.symm ..
  have loads' : Step update one (.load second) (one.move second (.loaded new') _) :=
    .load idle computes'
  set both := one.move second (.loaded new') one.disk
  have loaded : both.phase first = .loaded new :=
    (phase_move_of_ne _ different ..).trans (phase_move_self ..)
  have orderly : Orderly both := (State.start_empty.orderly.move first id).move second id
  have free : ∀ other, ¬ (both.phase other).Holds := by
    intro other
    by_cases isSecond : other = second
    · subst isSecond
      rw [phase_move_self]
      exact id
    by_cases isFirst : other = first
    · subst isFirst
      rw [loaded]
      exact id
    rw [phase_move_of_ne _ isSecond, phase_move_of_ne _ isFirst]
    exact id
  obtain ⟨mid, run, -, orderly', held, succeeded, others⟩ := exists_finished orderly free loaded
  have loaded' : mid.phase second = .loaded new' :=
    (others second different.symm).trans (phase_move_self ..)
  have free' : ∀ other, ¬ (mid.phase other).Holds := by
    intro other
    by_cases isFirst : other = first
    · subst isFirst
      rw [succeeded]
      exact id
    · rw [others other isFirst]
      exact free other
  obtain ⟨last, run', -, -, held', succeeded', others'⟩ :=
    exists_finished orderly' free' loaded'
  refine ⟨_, _, mid, last, ((Run.nil.concat loads).concat loads').append run, run', held,
    succeeded, ?_, held', succeeded', others'⟩
  rw [loaded']
  exact fun is => by cases is

end ReplacedFile
