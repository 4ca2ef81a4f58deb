import Hansa.RegistrySteps
import Hansa.Verif.LogLines

/-!
# Reading a log that others write

`read_chain` does not take the lock: while it reads, others append lines in pieces and replace
the whole log. A file that was opened only grows, and only while it is the log, so what a reader
returns in the end is what the log held at one moment of its reading, as a whole. Under the lock
that moment is the only one there is.
-/

namespace Hansa

open Program

variable {json : LinkJson} {path : PathBuf}

/-! ## The files of a directory -/

/-- The log, if there is one, ends in a newline or is empty. -/
def LogFiles.Settled (s : LogFiles) : Prop := ∀ bytes ∈ s.logBytes, Closed bytes

/-- A write that wrote nothing. -/
def FileOp.Stuck : (op : FileOp) → op.Answer → Prop
  | write _ _, .error _ => True
  | write _ _, .ok n => n = 0
  | _, _ => False

/-- What a call does, where no write fails that has begun a line of the log. -/
def FileOp.Untorn (op : FileOp) (s : LogFiles) (answer : op.Answer) (t : LogFiles) : Prop :=
  op.Performs s answer t ∧ (op.Stuck answer → s.Settled)

/-- The names stand for files, and every file but the temporary one is a log or was one. -/
structure LogFiles.Sound (json : LinkJson) (s : LogFiles) : Prop where
  /-- The log is a file, and another one than the temporary file. -/
  log : ∀ file, s.log = some file → file < s.contents.length ∧ s.temp ≠ some file
  /-- The temporary file is a file. -/
  temp : ∀ file, s.temp = some file → file < s.contents.length
  /-- A file holds encoded links in lines. -/
  lined : ∀ file, file < s.contents.length → s.temp ≠ some file → Lined json (s.content file)

/-- The log begins with a link that pins a dimension. -/
def LogFiles.Pins (json : LinkJson) (s : LogFiles) (dim : UInt32) : Prop :=
  ∃ bytes ∈ s.logBytes, ∃ link text, json.toString link = .ok text ∧ utf8 text <+: bytes ∧
    link.body.rootDim? = some dim

/-- What calls of the registry do to the directory. -/
structure LogFiles.Grows (json : LinkJson) (s t : LogFiles) : Prop where
  /-- The directory is sound. -/
  sound : t.Sound json
  /-- Files stay. -/
  files : s.contents.length ≤ t.contents.length
  /-- A file that was a log stays one or becomes an old one, and grows only while it is the log. -/
  kept : ∀ file, file < s.contents.length → s.temp ≠ some file → t.temp ≠ some file ∧
    s.content file <+: t.content file ∧ (t.content file = s.content file ∨ t.log = some file)
  /-- A log is never removed. -/
  log : s.log.isSome → t.log.isSome
  /-- A log keeps the dimension that its first link pins. -/
  pins : ∀ dim, s.Pins json dim → t.Pins json dim

/-- Nothing happened to a sound directory. -/
theorem LogFiles.Sound.grows {s : LogFiles} (sound : s.Sound json) : s.Grows json s where
  sound := sound
  files := Nat.le_refl _
  kept _ _ kept := ⟨kept, List.prefix_rfl, .inl rfl⟩
  log present := present
  pins _ pinned := pinned

/-- The bytes of a log are the content of its file. -/
theorem LogFiles.logBytes_of_log {s : LogFiles} {file : Nat} (isLog : s.log = some file) :
    s.logBytes = some (s.content file) := by
  rw [logBytes, isLog]
  rfl

/-- An earlier state of a directory: an assertion held, and what the log pinned it still pins. -/
structure Moment (json : LinkJson) (inv : LogFiles → Prop) (u s : LogFiles) : Prop where
  /-- The assertion held. -/
  held : inv u
  /-- The directory was sound. -/
  sound : u.Sound json
  /-- The log still pins what it pinned. -/
  pins : ∀ dim, u.Pins json dim → s.Pins json dim

/-- The present is a moment. -/
theorem Moment.now {inv : LogFiles → Prop} {s : LogFiles} (held : inv s) (sound : s.Sound json) :
    Moment json inv s s := ⟨held, sound, fun _ pinned => pinned⟩

/-- A moment stays one. -/
theorem Moment.later {inv : LogFiles → Prop} {u s t : LogFiles} (moment : Moment json inv u s)
    (grows : s.Grows json t) : Moment json inv u t :=
  ⟨moment.held, moment.sound, fun dim pinned => grows.pins dim (moment.pins dim pinned)⟩

/-- A file that was opened as the log, and what it holds was the log at some moment since. -/
structure Opened (json : LinkJson) (inv : LogFiles → Prop) (file : Nat) (s : LogFiles)
    (past : List LogFiles) : Prop where
  /-- The directory is sound. -/
  sound : s.Sound json
  /-- The assertion holds. -/
  held : inv s
  /-- It is a file. -/
  inside : file < s.contents.length
  /-- It is not the temporary file. -/
  other : s.temp ≠ some file
  /-- Its content was the log at some moment. -/
  seen : ∃ u ∈ s :: past, Moment json inv u s ∧ u.logBytes = some (s.content file)

section Reading

variable {rely guar : LogFiles → LogFiles → Prop} {inv : LogFiles → Prop} {file : Nat}
  {s t : LogFiles} {past more : List LogFiles}

/-- Others keep what is known of an opened file, and its content grows. -/
theorem Opened.later (grows : ∀ s t, rely s t → s.Grows json t)
    (kept : ∀ s t, inv s → rely s t → inv t) (opened : Opened json inv file s past)
    (later : Later rely s past t more) :
    Opened json inv file t more ∧ s.content file <+: t.content file := by
  induction later with
  | here => exact ⟨opened, List.prefix_rfl⟩
  | @next t u more later change ih =>
    obtain ⟨before, grown⟩ := ih
    have one := grows t u change
    obtain ⟨other, longer, same⟩ := one.kept file before.inside before.other
    have now := kept t u before.held change
    refine ⟨⟨one.sound, now, Nat.lt_of_lt_of_le before.inside one.files, other, ?_⟩,
      grown.trans longer⟩
    rcases same with unchanged | isLog
    · obtain ⟨v, member, moment, bytes⟩ := before.seen
      exact ⟨v, List.mem_cons_of_mem _ member, moment.later one, bytes.trans (by rw [unchanged])⟩
    · exact ⟨u, List.mem_cons_self, .now now one.sound, LogFiles.logBytes_of_log isLog⟩

/-- A look at the directory is remembered. -/
theorem Opened.look (opened : Opened json inv file s past) :
    Opened json inv file s (s :: past) := by
  obtain ⟨u, member, moment, bytes⟩ := opened.seen
  exact { opened with seen := ⟨u, List.mem_cons_of_mem _ member, moment, bytes⟩ }

/-- What was read of a file: links in lines and the beginning of a line, or links of which the
last one has no newline yet. -/
def ReadSoFar (json : LinkJson) (content : List UInt8) (offset : Nat) (pending : List UInt8)
    (links : List Link) : Prop :=
  ∃ front, front ++ pending <+: content ∧ offset = (front ++ pending).length ∧ 10 ∉ pending ∧
    (Written json front links ∨ pending = [] ∧ ∃ before link text first,
      front = before ++ utf8 text ∧ Written json before first ∧
      json.toString link = .ok text ∧ links = first ++ [link])

/-- What was read stays so while the file grows. -/
theorem ReadSoFar.mono {content content' : List UInt8} {offset : Nat} {pending : List UInt8}
    {links : List Link} (read : ReadSoFar json content offset pending links)
    (grown : content <+: content') : ReadSoFar json content' offset pending links := by
  obtain ⟨front, isFront, size, inside, parts⟩ := read
  exact ⟨front, isFront.trans grown, size, inside, parts⟩

/-- Nothing was read yet. -/
theorem readSoFar_nil (content : List UInt8) : ReadSoFar json content 0 [] [] :=
  ⟨[], List.nil_prefix, rfl, List.not_mem_nil, .inl written_nil⟩

/-- A file that was read to its end is read as the links. -/
theorem ReadSoFar.done (lawful : json.Lawful) {content : List UInt8} {offset : Nat}
    {links : List Link} (read : ReadSoFar json content offset [] links)
    (ended : content.drop offset = []) : readLog json path (some content) = .ok links := by
  obtain ⟨front, isFront, rfl, -, parts⟩ := read
  rw [List.append_nil] at isFront ended
  obtain ⟨rest, rfl⟩ := isFront
  rw [List.drop_left] at ended
  subst ended
  rw [List.append_nil, readLog]
  rcases parts with written | ⟨-, before, link, text, first, rfl, written, encoded, rfl⟩
  · exact written.read lawful 0
  · rw [splitLines_append written.closed]
    exact (readLines_append_ok 0).mpr
      ⟨first, [link], written.read lawful 0, readLines_text lawful encoded 0, rfl⟩

/-- A line without newline at the end of the file is read as a link only if all of its text is
there. -/
theorem ReadSoFar.openLine (lawful : json.Lawful) (free : json.PrefixFree) {content : List UInt8}
    {offset : Nat} {pending : List UInt8} {links others : List Link} {n : Nat}
    (lined : Lined json content) (read : ReadSoFar json content offset pending links)
    (ended : content.drop offset = []) (begun : pending ≠ [])
    (parsed : readLines json path n [(pending, false)] = .ok others) :
    ReadSoFar json content offset [] (links ++ others) := by
  obtain ⟨front, isFront, rfl, inside, parts⟩ := read
  obtain ⟨rest, rfl⟩ := isFront
  rw [List.drop_left] at ended
  subst ended
  rw [List.append_nil] at lined ⊢
  rcases parts with written | ⟨none_, -⟩
  · obtain ⟨link, text, encoded, rfl, rfl⟩ :=
      (lined.openLine lawful written.closed inside).read lawful free begun parsed
    exact ⟨front ++ utf8 text, by rw [List.append_nil], by rw [List.append_nil],
      List.not_mem_nil, .inr ⟨rfl, front, link, text, links, rfl, written, encoded, rfl⟩⟩
  · exact absurd none_ begun

/-- Lines that were ended by what was read are read as links. -/
theorem ReadSoFar.chunk (lawful : json.Lawful) (free : json.PrefixFree) {content : List UInt8}
    {offset : Nat} {pending chunk : List UInt8} {links others : List Link} {n : Nat}
    (lined : Lined json content) (read : ReadSoFar json content offset pending links)
    (isChunk : chunk <+: content.drop offset) (nonempty : chunk ≠ [])
    (parsed : readLines json path n
      (splitLines ((pending ++ chunk).rdropWhile (· ≠ 10))) = .ok others) :
    ReadSoFar json content (offset + chunk.length) ((pending ++ chunk).rtakeWhile (· ≠ 10))
      (links ++ others) := by
  obtain ⟨front, isFront, rfl, inside, parts⟩ := read
  obtain ⟨rest, rfl⟩ := isFront
  rw [List.drop_left] at isChunk
  obtain ⟨behind, rfl⟩ := isChunk
  have cut := List.rdropWhile_append_rtakeWhile (p := fun b => decide (b ≠ (10 : UInt8)))
    (l := pending ++ chunk)
  have closed : Closed ((pending ++ chunk).rdropWhile (· ≠ 10)) := by
    intro b last
    obtain ⟨some_, rfl⟩ := List.mem_getLast?_eq_getLast last
    simpa using List.rdropWhile_last_not (· ≠ (10 : UInt8)) (pending ++ chunk) some_
  have inside' : 10 ∉ (pending ++ chunk).rtakeWhile (· ≠ 10) := by
    intro member
    simpa using List.mem_rtakeWhile_imp member
  generalize (pending ++ chunk).rdropWhile (· ≠ 10) = ended at *
  generalize (pending ++ chunk).rtakeWhile (· ≠ 10) = left at *
  have whole : front ++ pending ++ (chunk ++ behind) = front ++ ended ++ (left ++ behind) := by
    rw [List.append_assoc, ← List.append_assoc pending, ← cut]
    simp only [List.append_assoc]
  have size : (front ++ pending).length + chunk.length = (front ++ ended ++ left).length := by
    rw [List.append_assoc front ended, cut]
    simp only [List.length_append]
    omega
  rw [whole] at lined ⊢
  refine ⟨front ++ ended, ?_, size, inside', .inl ?_⟩
  · rw [← List.append_assoc]
    exact List.prefix_append _ _
  rcases parts with written | ⟨rfl, before, link, text, first, rfl, written, encoded, rfl⟩
  · obtain ⟨more, two, both⟩ := lined.more lawful written closed (List.prefix_append _ _)
    obtain rfl := Except.ok.inj ((two.read lawful n).symm.trans parsed)
    exact both
  · -- The newline of the last link comes first.
    rw [List.nil_append] at cut
    have lined' : Lined json (before ++ utf8 text ++ (chunk ++ behind)) := by
      rw [← cut]
      simpa only [List.append_assoc] using lined
    obtain ⟨tail, isTail⟩ := lined'.newline lawful free written encoded (by
      intro none_
      exact nonempty (List.append_eq_nil_iff.mp none_).1)
    obtain ⟨b, chunk', rfl⟩ := List.exists_cons_of_ne_nil nonempty
    obtain ⟨rfl, -⟩ := List.cons.inj isTail
    cases ended with
    | nil =>
      obtain rfl : left = 10 :: chunk' := cut
      exact absurd List.mem_cons_self inside'
    | cons b' ended =>
      obtain ⟨rfl, -⟩ := List.cons.inj cut
      have closed' : Closed ended := by
        intro x last
        apply closed x
        cases ended with
        | nil => cases last
        | cons y ended => rwa [List.getLast?_cons_cons]
      have line : Written json (before ++ (utf8 text ++ [10])) (first ++ [link]) :=
        written.append (written_single encoded)
      obtain ⟨more, two, both⟩ := lined.more lawful line closed' (by
        rw [show before ++ utf8 text ++ 10 :: ended ++ (left ++ behind) =
          before ++ (utf8 text ++ [10]) ++ ended ++ (left ++ behind) by simp]
        exact List.prefix_append _ _)
      have blank : readLines json path n (splitLines (10 :: ended)) =
          readLines json path (n + 1) (splitLines ended) := by
        rw [splitLines, if_pos rfl, readLines]
        rfl
      rw [blank, two.read lawful (n + 1)] at parsed
      obtain rfl := Except.ok.inj parsed
      simpa only [List.append_assoc, List.singleton_append, List.cons_append, List.nil_append]
        using both

/-! ## The loop -/

/-- What a reader knows in the end: the assertion holds, and if it returns links, then these were
the whole log at one moment. -/
def Snapshot (json : LinkJson) (path : PathBuf) (inv : LogFiles → Prop)
    (result : Except Fault (List Link)) (s : LogFiles) (past : List LogFiles) : Prop :=
  inv s ∧ ∀ links, result = .ok links →
    ∃ u ∈ s :: past, Moment json inv u s ∧ readLog json path u.logBytes = .ok links

/-- A failed reader knows nothing more. -/
theorem snapshot_error {fault : Fault} (held : inv s) :
    Snapshot json path inv (.error fault) s past :=
  ⟨held, fun _ same => nomatch same⟩

/-- The loop of `read_chain`, on a file that was opened, returns what the log held at one moment,
without the links that were read before. -/
theorem guarantees_readRest (lawful : json.Lawful) (free : json.PrefixFree)
    (grows : ∀ s t, rely s t → s.Grows json t) (kept : ∀ s t, inv s → rely s t → inv t)
    (still : ∀ s, inv s → s.Sound json → guar s s) (reads lineno : Nat) {offset : Nat}
    {pending : List UInt8} {links : List Link} (opened : Opened json inv file s past)
    (read : ReadSoFar json (s.content file) offset pending links) :
    (FileRegistry.Steps.readRest json path file reads offset pending lineno).Guarantees
      FileOp.Untorn rely guar
      (fun result t more => Snapshot json path inv (result.map (links ++ ·)) t more) s past := by
  induction reads generalizing offset lineno pending links s past with
  | zero => exact guarantees_perform fun _ _ _ answer => nomatch answer
  | succ reads ih =>
    refine guarantees_perform fun t more later answer u done => ?_
    obtain ⟨here, grown⟩ := opened.later grows kept later
    have mid := read.mono grown
    obtain ⟨⟨rfl, outcome⟩, -⟩ := done
    have lined := here.sound.lined file here.inside here.other
    refine ⟨still u here.held here.sound, ?_⟩
    rcases outcome with ⟨e, rfl⟩ | ⟨chunk, rfl, isChunk, atEnd⟩
    · exact guarantees_fail (snapshot_error here.held)
    cases chunk with
    | nil =>
      by_cases begun : pending = []
      · -- The end of the file: what is in it now was the log at some moment.
        subst begun
        refine guarantees_ret ⟨here.held, fun all same => ?_⟩
        obtain rfl := Except.ok.inj same
        obtain ⟨v, member, moment, bytes⟩ := here.look.seen
        refine ⟨v, member, moment, ?_⟩
        have whole : readLog json path (some (u.content file)) = .ok links :=
          mid.done lawful (atEnd rfl)
        rwa [bytes, show (fun more => links ++ more) [] = links from List.append_nil links]
      · simp only [if_neg begun]
        cases parsed : readLines json path lineno [(pending, false)] with
        | error fault => exact snapshot_error here.held
        | ok one =>
          have next := mid.openLine lawful free lined (atEnd rfl) begun parsed
          refine (ih (lineno + 1) here.look next).andThen (fun error t more ends => ends)
            fun others t more ends => ?_
          rw [Except.map, List.append_assoc] at ends
          exact guarantees_ret ends
    | cons b chunk =>
      simp only
      cases parsed : readLines json path lineno
          (splitLines ((pending ++ b :: chunk).rdropWhile (· ≠ 10))) with
      | error fault => exact snapshot_error here.held
      | ok some_ =>
        have next := mid.chunk lawful free lined isChunk (List.cons_ne_nil b chunk) parsed
        refine (ih _ here.look next).andThen (fun error t more ends => ends)
          fun others t more ends => ?_
        rw [Except.map, List.append_assoc] at ends
        exact guarantees_ret ends

/-- `read_chain` returns what the log held at one moment. -/
theorem guarantees_readChain (inv : LogFiles → Prop) (lawful : json.Lawful)
    (free : json.PrefixFree) (r : FileRegistry) (hansa : HansaId)
    (grows : ∀ s t, rely s t → s.Grows json t) (kept : ∀ s t, inv s → rely s t → inv t)
    (still : ∀ s, inv s → s.Sound json → guar s s) (sound : s.Sound json) (held : inv s)
    (reads : Nat) :
    (FileRegistry.Steps.readChain json r hansa reads).Guarantees FileOp.Untorn rely guar
      (Snapshot json (r.logPath hansa) inv) s past := by
  have known : ∀ {t more}, Later rely s past t more → inv t ∧ t.Sound json := fun later =>
    later.invariant (fun t => inv t ∧ t.Sound json) ⟨held, sound⟩
      fun v w before change => ⟨kept v w before.1 change, (grows v w change).sound⟩
  refine guarantees_perform fun t more later answer u done => ?_
  obtain ⟨⟨rfl, rfl⟩, -⟩ := done
  obtain ⟨heldU, soundU⟩ := known later
  refine ⟨still u heldU soundU, ?_⟩
  cases present : u.log with
  | none =>
    refine guarantees_ret ⟨heldU, fun links same => ?_⟩
    obtain rfl := Except.ok.inj same
    refine ⟨u, List.mem_cons_self, .now heldU soundU, ?_⟩
    rw [LogFiles.logBytes, present]
    rfl
  | some file =>
    refine guarantees_perform fun v most later' answer w done => ?_
    obtain ⟨⟨rfl, outcome⟩, -⟩ := done
    obtain ⟨heldW, soundW⟩ := later'.invariant (fun t => inv t ∧ t.Sound json) ⟨heldU, soundU⟩
      fun v w before change => ⟨kept v w before.1 change, (grows v w change).sound⟩
    refine ⟨still w heldW soundW, ?_⟩
    rcases outcome with ⟨e, rfl⟩ | ⟨file', isLog, rfl⟩
    · exact snapshot_error heldW
    · obtain ⟨inside, other⟩ := soundW.log file' isLog
      have opened : Opened json inv file' w (w :: most) :=
        ⟨soundW, heldW, inside, other, w, List.mem_cons_self, .now heldW soundW,
          LogFiles.logBytes_of_log isLog⟩
      refine (guarantees_readRest lawful free grows kept still reads 0 opened
        (readSoFar_nil _)).mono fun result t more ends => ?_
      cases result with
      | ok links => simpa [Except.map] using ends
      | error fault => exact ends

end Reading

end Hansa
