import Hansa.Keystore
import Hansa.Library.Transition
import Hansa.Verif.HexDecoding
import Hansa.Verif.KeyFile

/-!
# What a file keystore loads

The calls are made one after another. Each may fail or be stopped at any call of the operating
system, so a store may leave the front of a key's text. A load still answers what a keystore in
memory would, on which the calls that failed were made or not; only the front of a key is
reported as malformed.
-/

namespace Hansa

/-! ## The front of a key -/

namespace FileKeystore

/-- What is reported on the front of a key's text, by its length. -/
def cutShort (n : Nat) : HansaError :=
  if n % 2 = 1 then .invariant ("hex string has odd length: " ++ toString n)
  else .invalidKeyLength (n / 2)

/-- The front of pairs is the pairs of the front. -/
theorem take_pairs (bytes : List UInt8) (m : Nat) :
    (bytes.flatMap fun b => utf8 (hexByte b)).take (2 * m) =
      (bytes.take m).flatMap fun b => utf8 (hexByte b) := by
  induction bytes generalizing m with
  | nil => simp
  | cons b bytes ih =>
    cases m with
    | zero => simp
    | succ m =>
      have two : 2 * (m + 1) = 2 * m + 1 + 1 := by omega
      rw [List.take_succ_cons, List.flatMap_cons, List.flatMap_cons, utf8_hexByte, two, ← ih m]
      rfl

/-- The front of a key is reported, whatever its slot. -/
theorem load_front (slot : String) (key : HansaKey) {n : Nat} (short : n < 64) :
    load slot (some ((utf8 (content key)).take n)) = fail (cutShort n) := by
  have hex : IsHexText 32 (content key) := (isHexText_encodeHex key.bytes).1
  have bytes : utf8 (content key) = key.bytes.toList.flatMap fun b => utf8 (hexByte b) := by
    rw [content, encodeHex, utf8_join, List.flatMap_map]
  have isHex : ∀ ch ∈ ((content key).toList.take n), IsHexChar ch :=
    fun ch member => hex.2 ch (List.mem_of_mem_take member)
  have text : utf8 (String.ofList ((content key).toList.take n)) = (utf8 (content key)).take n := by
    rw [utf8_of_hex (by rwa [String.toList_ofList]), String.toList_ofList, utf8_of_hex hex.2,
      List.map_take]
  have length : ((utf8 (content key)).take n).length = n := by
    rw [List.length_take, hex.length]
    omega
  have plain : trim (String.ofList ((content key).toList.take n)) =
      String.ofList ((content key).toList.take n) := by
    apply trim_eq
    rw [String.toList_ofList]
    exact fun ch member => HeadCache.plain_hex key.bytes ch (List.mem_of_mem_take member)
  rw [← text]
  simp only [load, fromUtf8_utf8, plain, decodeHex]
  rw [text, length]
  by_cases odd : n % 2 = 1
  · rw [if_pos (by omega), cutShort, if_pos odd]
    rfl
  · have half : n = 2 * (n / 2) := by omega
    have decoded : decodePairs ((utf8 (content key)).take n) =
        .ok (key.bytes.toList.take (n / 2)) := by
      rw [half, bytes, take_pairs, decodePairs_hex]
      congr 2
      omega
    have count : (key.bytes.toList.take (n / 2)).length = n / 2 := by
      rw [List.length_take, Vector.length_toList]
      omega
    have few : (key.bytes.toList.take (n / 2)).toArray.size ≠ 32 := by
      rw [List.size_toArray, count]
      omega
    rw [if_neg (by omega), decoded, ok_bind, HansaKey.fromSlice, HeadCache.hashOf, dif_neg few,
      count, cutShort, if_neg odd]

end FileKeystore

/-- A variable with the text of a key file is loaded as the key. -/
theorem EnvKeystore.load_content {var : String → Option String} {slot : String} {key : HansaKey}
    (set : var (envName slot) = some (FileKeystore.content key)) : load var slot = .ok key := by
  have loaded := FileKeystore.load_content slot key
  rw [FileKeystore.load, fromUtf8_utf8] at loaded
  rw [load, set]
  exact loaded

/-! ## Calls on files -/

/-- A call that was made, with its answer unless it was stopped. -/
structure KeystoreEvent where
  /-- The call. -/
  call : KeystoreCall
  /-- The answer, with the key that was loaded. -/
  answer : Option (Result (Option HansaKey))

namespace KeystoreEvent

/-- The call returned `Ok`. -/
def succeeded (e : KeystoreEvent) : Bool :=
  match e.answer with
  | some (.ok _) => true
  | _ => false

/-- Whether a store of the slot was broken off since its key was last stored or removed. -/
def torn (slot : String) (before : Bool) (e : KeystoreEvent) : Bool :=
  match e.call with
  | .load _ => before
  | .store other _ => if other = slot then !e.succeeded else before
  | .remove other => if other = slot then before && !e.succeeded else before

/-- Keystores in memory on which the calls were made, where a call that did not return `Ok` was
made or not. -/
inductive After : List KeystoreEvent → MemoryKeystore → Prop where
  /-- No call was made. -/
  | new : After [] MemoryKeystore.new
  /-- A call was made. -/
  | made {events : List KeystoreEvent} {m : MemoryKeystore} (before : After events m)
      (e : KeystoreEvent) : After (events ++ [e]) (m.after e.call)
  /-- A call that did not return `Ok` was not made. -/
  | unmade {events : List KeystoreEvent} {m : MemoryKeystore} {e : KeystoreEvent}
      (before : After events m) (failed : e.succeeded = false) : After (events ++ [e]) m

end KeystoreEvent

namespace FileKeystore

/-- A call of the keystore on files, from its start to its answer or to where it was stopped. -/
def Step (file : PathBuf → PathBuf) (keystore : FileKeystore) (s : KeyFiles) (e : KeystoreEvent)
    (t : KeyFiles) : Prop :=
  ∃ n rest, (Steps.call keystore e.call).Reaches (KeyFileOp.Performs file) n s rest t ∧
    ∀ result, e.answer = some result → rest = .ofExcept result

section Steps

open Program

variable {file : PathBuf → PathBuf} {keystore : FileKeystore} {slot : String} {key : HansaKey}
  {s t : KeyFiles} {path : PathBuf} {text : List UInt8}

/-- The file of a path has a content, and the others are as before. -/
def ChangedTo (file : PathBuf → PathBuf) (s : KeyFiles) (path : PathBuf)
    (content : Option (List UInt8)) (t : KeyFiles) : Prop :=
  t = Function.update s (file path) content

/-- What is left of a text is written behind its front. -/
theorem safe_writeAll (k : Nat) (front : ChangedTo file s path (some (text.take k)) t) :
    (Steps.writeAll path (text.drop k)).Safe (KeyFileOp.Performs file)
      (fun t => ∃ n, ChangedTo file s path (some (text.take n)) t)
      (fun result t => ∀ value, result = .ok value → ChangedTo file s path (some text) t) t := by
  generalize rest : text.drop k = left
  induction left using Steps.writeAll.induct generalizing k t with
  | case1 =>
    have whole : text.take k = text := List.take_of_length_le (List.drop_eq_nil_iff.mp rest)
    rw [Steps.writeAll]
    refine safe_ret ⟨k, front⟩ fun _ _ => ?_
    rwa [whole] at front
  | case2 b bytes ih =>
    rw [Steps.writeAll]
    refine safe_perform ⟨k, front⟩ fun answer u done => ?_
    rcases done with ⟨⟨e, rfl⟩, rfl⟩ | ⟨n, _, rfl, rfl⟩
    · exact safe_fail ⟨k, front⟩ fun _ same => nomatch same
    · have written : ChangedTo file s path (some (text.take (k + n)))
          (Function.update t (file path)
            (some ((t (file path)).getD [] ++ (b :: bytes).take n))) := by
        have here : t (file path) = some (text.take k) := by
          rw [front, Function.update_self]
        rw [ChangedTo, here, ← rest, front, Function.update_idem, Option.getD_some, List.take_add]
      cases n with
      | zero => exact safe_fail ⟨_, written⟩ fun _ same => nomatch same
      | succ n =>
        apply ih n (k + (n + 1)) written
        rw [← List.drop_drop, rest, List.drop_succ_cons]

/-- A file is replaced by a text, or left as it was or with the front of the text. -/
theorem safe_writeWithPerms (path : PathBuf) (text : List UInt8) (s : KeyFiles) :
    (Steps.writeWithPerms path text).Safe (KeyFileOp.Performs file)
      (fun t => t = s ∨ ∃ n, ChangedTo file s path (some (text.take n)) t)
      (fun result t => ∀ value, result = .ok value → ChangedTo file s path (some text) t) s := by
  refine safe_perform (.inl rfl) fun answer t done => ?_
  rcases done with ⟨⟨e, rfl⟩, rfl⟩ | ⟨rfl, emptied⟩
  · exact safe_fail (.inl rfl) fun _ same => nomatch same
  · have front : ChangedTo file s path (some (text.take 0)) t := emptied
    have written := safe_writeAll 0 front
    have sound : (Steps.writeAll path text >>= fun _ => .perform (.sync path) Steps.ioResult).Safe
        (KeyFileOp.Performs file)
        (fun t => t = s ∨ ∃ n, ChangedTo file s path (some (text.take n)) t)
        (fun result t => ∀ value, result = .ok value → ChangedTo file s path (some text) t) t := by
      apply Safe.bind
      refine (written.weaken fun t front => .inr front).mono fun result u _ ends => ?_
      cases result with
      | error fault => exact fun value same => nomatch same
      | ok value =>
        have whole := ends value rfl
        have front : ∃ n, ChangedTo file s path (some (text.take n)) u := by
          refine ⟨text.length, ?_⟩
          rwa [List.take_length]
        refine safe_perform (.inr front) fun answer v same => ?_
        obtain rfl : v = u := same
        cases answer with
        | error e => exact safe_fail (.inr front) fun _ _ => whole
        | ok _ => exact safe_ret (.inr front) fun _ _ => whole
    exact sound

/-- A store leaves the file as it was, or with the front of the key. -/
theorem safe_store (slot : String) (key : HansaKey) (s : KeyFiles) :
    (Steps.store keystore slot key).Safe (KeyFileOp.Performs file)
      (fun t => t = s ∨ ∃ n,
        ChangedTo file s (keystore.pathFor slot) (some ((utf8 (content key)).take n)) t)
      (fun result t => ∀ value, result = .ok value →
        ChangedTo file s (keystore.pathFor slot) (some (utf8 (content key))) t) s := by
  refine safe_perform (.inl rfl) fun answer t same => ?_
  obtain rfl : t = s := same
  cases answer with
  | error e => exact safe_fail (.inl rfl) fun _ same => nomatch same
  | ok _ => exact safe_writeWithPerms _ _ t

/-- A removal leaves the file as it was, or removes it. -/
theorem safe_remove (slot : String) (s : KeyFiles) :
    (Steps.remove keystore slot).Safe (KeyFileOp.Performs file)
      (fun t => t = s ∨ ChangedTo file s (keystore.pathFor slot) none t)
      (fun result t =>
        ∀ value, result = .ok value → ChangedTo file s (keystore.pathFor slot) none t)
      s := by
  refine safe_perform (.inl rfl) fun answer t done => ?_
  rcases done with ⟨⟨e, rfl⟩, rfl⟩ | ⟨rfl, removed⟩
  · exact safe_fail (.inl rfl) fun _ same => nomatch same
  · exact safe_ret (.inr removed) fun _ _ => removed

/-- A load reads the file of the slot. -/
theorem safe_load (slot : String) (s : KeyFiles) :
    (Steps.load keystore slot).Safe (KeyFileOp.Performs file) (fun t => t = s)
      (fun result _ => (∃ e, result = fail (.io e)) ∨
        result = FileKeystore.load slot (s (file (keystore.pathFor slot)))) s := by
  refine safe_perform rfl fun answer t done => ?_
  obtain ⟨rfl, ⟨e, rfl⟩ | rfl⟩ := done
  · exact safe_fail rfl (.inl ⟨e, rfl⟩)
  · exact Safe.ofExcept rfl (.inr rfl)

/-- A call ends as its program does. -/
theorem Step.of_safe {call : KeystoreCall} {answer : Option (Result (Option HansaKey))}
    {holds : KeyFiles → Prop} {post : Result (Option HansaKey) → KeyFiles → Prop}
    (step : Step file keystore s ⟨call, answer⟩ t)
    (safe : (Steps.call keystore call).Safe (KeyFileOp.Performs file) holds post s) :
    holds t ∧ ∀ result, answer = some result → post result t := by
  obtain ⟨n, rest, reaches, ends⟩ := step
  have left := safe.reaches reaches
  refine ⟨left.here, fun result same => ?_⟩
  rw [ends result same] at left
  exact left.ends

/-- A call that returns nothing is safe as what it does. -/
theorem safe_call {p : KeyFilesM Unit} {holds after : KeyFiles → Prop}
    (safe : p.Safe (KeyFileOp.Performs file) holds
      (fun result t => ∀ value, result = .ok value → after t) s) :
    (p >>= fun _ => (.ret none : KeyFilesM (Option HansaKey))).Safe (KeyFileOp.Performs file) holds
      (fun result t => ∀ value, result = .ok value → after t) s := by
  apply Safe.bind
  refine safe.mono fun result t here ends => ?_
  cases result with
  | ok value => exact safe_ret here fun _ _ => ends value rfl
  | error fault => exact fun _ same => nomatch same

/-- A call that succeeded was answered. -/
theorem answer_of_succeeded {e : KeystoreEvent} (succeeded : e.succeeded = true) :
    ∃ value, e.answer = some (.ok value) := by
  unfold KeystoreEvent.succeeded at succeeded
  split at succeeded
  · next value answered => exact ⟨value, answered⟩
  · cases succeeded

/-- A store writes the key, or fails and leaves the file as it was or with the front of the key. -/
theorem Step.store {answer : Option (Result (Option HansaKey))}
    (step : Step file keystore s ⟨.store slot key, answer⟩ t) :
    ChangedTo file s (keystore.pathFor slot) (some (utf8 (content key))) t ∨
      KeystoreEvent.succeeded ⟨.store slot key, answer⟩ = false ∧
        (t = s ∨ ∃ n, ChangedTo file s (keystore.pathFor slot)
          (some ((utf8 (content key)).take n)) t) := by
  obtain ⟨left, ends⟩ := step.of_safe (safe_call (safe_store slot key s))
  by_cases succeeded : KeystoreEvent.succeeded ⟨.store slot key, answer⟩ = true
  · obtain ⟨value, answered⟩ := answer_of_succeeded succeeded
    exact .inl (ends _ answered value rfl)
  · exact .inr ⟨Bool.eq_false_of_not_eq_true succeeded, left⟩

/-- A removal removes the file, or fails and leaves it as it was. -/
theorem Step.remove {answer : Option (Result (Option HansaKey))}
    (step : Step file keystore s ⟨.remove slot, answer⟩ t) :
    ChangedTo file s (keystore.pathFor slot) none t ∨
      KeystoreEvent.succeeded ⟨.remove slot, answer⟩ = false ∧ t = s := by
  obtain ⟨left, ends⟩ := step.of_safe (safe_call (safe_remove slot s))
  by_cases succeeded : KeystoreEvent.succeeded ⟨.remove slot, answer⟩ = true
  · obtain ⟨value, answered⟩ := answer_of_succeeded succeeded
    exact .inl (ends _ answered value rfl)
  · rcases left with same | removed
    · exact .inr ⟨Bool.eq_false_of_not_eq_true succeeded, same⟩
    · exact .inl removed

/-- A load leaves the files alone and answers from the file of its slot. -/
theorem Step.load {answer : Option (Result (Option HansaKey))}
    (step : Step file keystore s ⟨.load slot, answer⟩ t) :
    t = s ∧ ∀ result, answer = some result → (∃ e, result = fail (.io e)) ∨
      result = some <$> FileKeystore.load slot (s (file (keystore.pathFor slot))) := by
  apply step.of_safe
  apply Safe.bind
  refine (safe_load slot s).mono fun result t here ends => ?_
  cases result with
  | ok key =>
    refine safe_ret here (.inr ?_)
    rcases ends with ⟨e, same⟩ | same
    · cases same
    · rw [← same]
      rfl
  | error fault =>
    rcases ends with ⟨e, same⟩ | same
    · exact .inl ⟨e, congrArg _ (Except.error.inj same)⟩
    · refine .inr ?_
      rw [← same]
      rfl

end Steps

/-! ## Runs -/

open KeystoreEvent

/-- What is known of the file of a slot when calls were made. -/
def ContentAfter (slot : String) (events : List KeystoreEvent) (content : Option (List UInt8)) :
    Prop :=
  (∃ m, After events m ∧
    content = (m.inner slot).map fun key => utf8 (FileKeystore.content key)) ∨
  events.foldl (torn slot) false = true ∧
    ∃ key n, n < 64 ∧ content = some ((utf8 (FileKeystore.content key)).take n)

variable {slot : String} {events : List KeystoreEvent} {content : Option (List UInt8)}
  {e : KeystoreEvent}

/-- All calls may have been made. -/
theorem exists_after (events : List KeystoreEvent) : ∃ m, After events m := by
  induction events using List.reverseRecOn with
  | nil => exact ⟨_, .new⟩
  | append_singleton events e ih =>
    obtain ⟨m, before⟩ := ih
    exact ⟨_, before.made e⟩

/-- A call that is about other slots changes nothing. -/
theorem ContentAfter.other (held : ContentAfter slot events content) (other : e.call.slot ≠ slot) :
    ContentAfter slot (events ++ [e]) content := by
  have keeps : ∀ m : MemoryKeystore, (m.after e.call).inner slot = m.inner slot := by
    intro m
    cases h : e.call with
    | load _ => rfl
    | store other' key =>
      rw [h] at other
      exact Function.update_of_ne other.symm _ _
    | remove other' =>
      rw [h] at other
      exact Function.update_of_ne other.symm _ _
  have sameTorn : ∀ before, torn slot before e = before := by
    intro before
    unfold torn
    cases h : e.call with
    | load _ => rfl
    | store other' key =>
      rw [h] at other
      exact if_neg other
    | remove other' =>
      rw [h] at other
      exact if_neg other
  rcases held with ⟨m, before, same⟩ | ⟨isTorn, front⟩
  · refine .inl ⟨_, before.made e, ?_⟩
    rw [same, keeps]
  · refine .inr ⟨?_, front⟩
    rwa [List.foldl_append, List.foldl_cons, List.foldl_nil, sameTorn]

/-- A load changes nothing. -/
theorem ContentAfter.load {other : String} {answer : Option (Result (Option HansaKey))}
    (held : ContentAfter slot events content) :
    ContentAfter slot (events ++ [⟨.load other, answer⟩]) content := by
  rcases held with ⟨m, before, same⟩ | ⟨isTorn, front⟩
  · exact .inl ⟨_, before.made ⟨.load other, answer⟩, same⟩
  · refine .inr ⟨?_, front⟩
    rwa [List.foldl_append]

/-- A call that failed may have changed nothing. -/
theorem ContentAfter.failed (held : ContentAfter slot events content)
    (failed : e.succeeded = false) :
    ContentAfter slot (events ++ [e]) content := by
  rcases held with ⟨m, before, same⟩ | ⟨isTorn, front⟩
  · exact .inl ⟨m, before.unmade failed, same⟩
  · refine .inr ⟨?_, front⟩
    rw [List.foldl_append, isTorn, List.foldl_cons, List.foldl_nil, torn, failed]
    split
    · rfl
    · exact ite_self _
    · exact ite_self _

/-- A call leaves the file of a slot as is known of the calls. -/
theorem ContentAfter.step {file : PathBuf → PathBuf} {keystore : FileKeystore} {s t : KeyFiles}
    (held : ContentAfter slot events (s (file (keystore.pathFor slot))))
    (step : Step file keystore s e t)
    (separate : file (keystore.pathFor e.call.slot) = file (keystore.pathFor slot) →
      e.call.slot = slot) :
    ContentAfter slot (events ++ [e]) (t (file (keystore.pathFor slot))) := by
  have apart : ∀ content, e.call.slot ≠ slot →
      ChangedTo file s (keystore.pathFor e.call.slot) content t →
      t (file (keystore.pathFor slot)) = s (file (keystore.pathFor slot)) := by
    intro content other has
    rw [has]
    exact Function.update_of_ne (fun same => other (separate same.symm)) _ _
  obtain ⟨m, before⟩ := exists_after events
  obtain ⟨call, answer⟩ := e
  cases call with
  | load other =>
    obtain ⟨same, _⟩ := Step.load step
    rw [same]
    exact held.load
  | store other key =>
    by_cases isSlot : other = slot
    · subst isSlot
      rcases Step.store step with whole | ⟨failed, same | ⟨n, front⟩⟩
      · refine .inl ⟨_, before.made _, ?_⟩
        rw [whole, Function.update_self, MemoryKeystore.after, MemoryKeystore.inner_store,
          Option.map_some]
      · rw [same]
        exact held.failed failed
      · rw [front, Function.update_self]
        by_cases short : n < 64
        · refine .inr ⟨?_, key, n, short, rfl⟩
          simp only [List.foldl_append, List.foldl_cons, List.foldl_nil, torn, if_true, failed,
            Bool.not_false]
        · have all : (utf8 (content key)).length ≤ n := by
            have length := (isHexText_encodeHex key.bytes).1.length
            rw [content, length]
            omega
          refine .inl ⟨_, before.made _, ?_⟩
          rw [List.take_of_length_le all, MemoryKeystore.after, MemoryKeystore.inner_store,
            Option.map_some]
    · have untouched : t (file (keystore.pathFor slot)) = s (file (keystore.pathFor slot)) := by
        rcases Step.store step with whole | ⟨_, same | ⟨n, front⟩⟩
        · exact apart _ isSlot whole
        · rw [same]
        · exact apart _ isSlot front
      rw [untouched]
      exact held.other isSlot
  | remove other =>
    by_cases isSlot : other = slot
    · subst isSlot
      rcases Step.remove step with removed | ⟨failed, same⟩
      · refine .inl ⟨_, before.made _, ?_⟩
        rw [removed, Function.update_self, MemoryKeystore.after, MemoryKeystore.inner_remove,
          Option.map_none]
      · rw [same]
        exact held.failed failed
    · have untouched : t (file (keystore.pathFor slot)) = s (file (keystore.pathFor slot)) := by
        rcases Step.remove step with removed | ⟨_, same⟩
        · exact apart _ isSlot removed
        · rw [same]
      rw [untouched]
      exact held.other isSlot

/-- The calls leave the file of a slot as is known of them. -/
theorem contentAfter_of_run {file : PathBuf → PathBuf} {keystore : FileKeystore} {s : KeyFiles}
    (run : Run (Step file keystore) (fun _ => none) events s)
    (separate : ∀ e ∈ events, file (keystore.pathFor e.call.slot) = file (keystore.pathFor slot) →
      e.call.slot = slot) :
    ContentAfter slot events (s (file (keystore.pathFor slot))) := by
  induction run with
  | nil => exact .inl ⟨_, .new, rfl⟩
  | concat before next ih =>
    have held := ih fun e member => separate e (List.mem_append_left _ member)
    exact held.step next (separate _ (List.mem_append_right _ (List.mem_singleton_self _)))

/-- Calls on a file keystore that starts without files are made one after another, and each may
fail or be stopped anywhere. What a load of a slot returns is then an I/O error, or the answer of
a keystore in memory on which the calls were made, those that failed or were stopped perhaps not,
or, when the last store of the slot was broken off, an error that names a length below that of a
key. The slot's file must not be that of another slot. -/
theorem load_answers {file : PathBuf → PathBuf} {keystore : FileKeystore} {s t : KeyFiles}
    {result : Result (Option HansaKey)} (run : Run (Step file keystore) (fun _ => none) events s)
    (separate : ∀ e ∈ events, file (keystore.pathFor e.call.slot) = file (keystore.pathFor slot) →
      e.call.slot = slot)
    (loads : Step file keystore s ⟨.load slot, some result⟩ t) :
    (∃ e, result = fail (.io e)) ∨ (∃ m, After events m ∧ result = some <$> m.load slot) ∨
      events.foldl (torn slot) false = true ∧ ∃ n < 64, result = fail (cutShort n) := by
  have held := contentAfter_of_run run separate
  rcases (Step.load loads).2 result rfl with io | answered
  · exact .inl io
  · right
    rcases held with ⟨m, after, same⟩ | ⟨isTorn, key, n, short, same⟩
    · refine .inl ⟨m, after, ?_⟩
      rw [answered, same, MemoryKeystore.load]
      cases m.inner slot with
      | none => rfl
      | some key => rw [Option.map_some, load_content]
    · refine .inr ⟨isTorn, n, short, ?_⟩
      rw [answered, same, load_front slot key short]
      rfl

/-- A keystore. -/
def sampleStore : FileKeystore := ⟨⟨utf8 "/k"⟩⟩

/-- A store that was stopped when the file was emptied. -/
def sampleBroken : KeystoreEvent := ⟨.store "a" ⟨Vector.replicate 32 7⟩, none⟩

/-- The files that the store left. -/
def sampleLeft : KeyFiles := Function.update (fun _ => none) (sampleStore.pathFor "a") (some [])

/-- The broken store is a run. -/
theorem run_broken : Run (Step id sampleStore) (fun _ => none) [sampleBroken] sampleLeft := by
  have created : KeyFileOp.Performs id .createRoot (fun _ => none) (.ok ()) (fun _ => none) := rfl
  have emptied : KeyFileOp.Performs id (.openTruncate (sampleStore.pathFor "a")) (fun _ => none)
      (.ok ()) sampleLeft := .inr ⟨rfl, rfl⟩
  have step : Step id sampleStore (fun _ => none) sampleBroken sampleLeft := by
    exact ⟨2, _, Program.Reaches.next created (.next emptied (.here _ _)),
      fun _ same => nomatch same⟩
  exact Run.nil.concat step

/-- An empty key file is reported. -/
theorem load_broken : Step id sampleStore sampleLeft
    ⟨.load "a", some (fail (.invalidKeyLength 0))⟩ sampleLeft := by
  have content : sampleLeft (sampleStore.pathFor "a") = some [] := Function.update_self ..
  refine ⟨1, .fail (.err (.invalidKeyLength 0)), ?_, ?_⟩
  · have read : KeyFileOp.Performs id (.readFile (sampleStore.pathFor "a")) sampleLeft
        (.ok (some [])) sampleLeft := ⟨rfl, .inr (congrArg Except.ok content.symm)⟩
    exact .next read (.here _ _)
  · intro result same
    obtain rfl := Option.some.inj same
    rfl

/-- A load behind a store that was stopped. -/
theorem load_answers_sample : (∃ e, (fail (.invalidKeyLength 0) : Result (Option HansaKey)) =
      fail (.io e)) ∨
    (∃ m, After [sampleBroken] m ∧
      (fail (.invalidKeyLength 0) : Result (Option HansaKey)) = some <$> m.load "a") ∨
    [sampleBroken].foldl (torn "a") false = true ∧
      ∃ n < 64, (fail (.invalidKeyLength 0) : Result (Option HansaKey)) = fail (cutShort n) :=
  load_answers run_broken (fun _ member _ => List.mem_singleton.mp member ▸ rfl) load_broken

end FileKeystore

end Hansa
