import Hansa.Verif.CliInstance

/-!
# Which passphrases share a key

The name of a hansa is hashed in front of its passphrase, and nothing marks where the one ends
and the other begins. So two hansas have the same key, skipper and id, whatever is hashed with,
when their names and passphrases differ only in where the boundary lies. Where it cannot move,
the hashed bytes tell names and passphrases apart, and a derivation without collisions keeps
apart all that is derived from them.
-/

namespace Hansa.Cli

/-- The bytes that `HansaKey::from_passphrase` hashes. -/
def passphraseInput (passphrase : String) (salt : List UInt8) : List UInt8 :=
  salt ++ utf8 passphrase

/-- A key is derived from these bytes. -/
theorem fromPassphrase_eq (kdf : KeyDerivation) (passphrase : String) (salt : List UInt8) :
    HansaKey.fromPassphrase kdf passphrase salt =
      ⟨kdf.deriveKey "hansa.key.v1" (passphraseInput passphrase salt)⟩ := rfl

/-- A function does not take two arguments to one value. -/
def NoCollision {α β : Type} (f : α → β) (x y : α) : Prop := f x = f y → x = y

/-- Two inputs do not collide anywhere between their bytes and the ids of their hansas. -/
structure CollisionFree (setup : Setup) (input input' : List UInt8) : Prop where
  /-- The keys. -/
  keys : NoCollision (fun bytes => (⟨setup.kdf.deriveKey "hansa.key.v1" bytes⟩ : HansaKey))
    input input'
  /-- The skippers of the keys. -/
  skippers : NoCollision (Skipper.fromHansaKey setup.kdf)
    ⟨setup.kdf.deriveKey "hansa.key.v1" input⟩ ⟨setup.kdf.deriveKey "hansa.key.v1" input'⟩
  /-- The public keys of the skippers. -/
  publics : NoCollision (Skipper.pub setup.crypto)
    (Skipper.fromHansaKey setup.kdf ⟨setup.kdf.deriveKey "hansa.key.v1" input⟩)
    (Skipper.fromHansaKey setup.kdf ⟨setup.kdf.deriveKey "hansa.key.v1" input'⟩)
  /-- The ids of the public keys. -/
  ids : NoCollision (HansaId.fromSkipper setup.crypto)
    ((Skipper.fromHansaKey setup.kdf
      ⟨setup.kdf.deriveKey "hansa.key.v1" input⟩).pub setup.crypto)
    ((Skipper.fromHansaKey setup.kdf
      ⟨setup.kdf.deriveKey "hansa.key.v1" input'⟩).pub setup.crypto)

/-- What the keys of two trust groups lead to is all different. -/
structure Separate (setup : Setup) (key key' : HansaKey) : Prop where
  /-- The keys. -/
  keys : key ≠ key'
  /-- The skippers. -/
  skippers : Skipper.fromHansaKey setup.kdf key ≠ Skipper.fromHansaKey setup.kdf key'
  /-- The ids. -/
  ids : setup.hansaId key ≠ setup.hansaId key'

variable {setup : Setup} {passphrase passphrase' : String} {salt salt' : List UInt8}

/-- The hashed bytes tell two pairs apart unless the boundary can move. -/
theorem passphraseInput_iff :
    (passphraseInput passphrase salt = passphraseInput passphrase' salt' →
      salt = salt' ∧ passphrase = passphrase') ↔
      ¬ BoundaryMoves salt (utf8 passphrase) salt' (utf8 passphrase') := by
  rw [← append_pair_iff, utf8_injective.eq_iff]
  rfl

/-- Without collisions, different bytes lead to different keys, skippers and ids. -/
theorem CollisionFree.separate {input input' : List UInt8}
    (free : CollisionFree setup input input') (different : input ≠ input') :
    Separate setup ⟨setup.kdf.deriveKey "hansa.key.v1" input⟩
      ⟨setup.kdf.deriveKey "hansa.key.v1" input'⟩ := by
  have keys : (⟨setup.kdf.deriveKey "hansa.key.v1" input⟩ : HansaKey) ≠
      ⟨setup.kdf.deriveKey "hansa.key.v1" input'⟩ := fun same => different (free.keys same)
  have skippers : Skipper.fromHansaKey setup.kdf ⟨setup.kdf.deriveKey "hansa.key.v1" input⟩ ≠
      Skipper.fromHansaKey setup.kdf ⟨setup.kdf.deriveKey "hansa.key.v1" input'⟩ :=
    fun same => keys (free.skippers same)
  exact ⟨keys, skippers, fun same => skippers (free.publics (free.ids same))⟩

/-- Pairs whose boundary can move are different, and have the same bytes. -/
theorem same_input_of_moves
    (moves : BoundaryMoves salt (utf8 passphrase) salt' (utf8 passphrase')) :
    (salt ≠ salt' ∨ passphrase ≠ passphrase') ∧
      passphraseInput passphrase salt = passphraseInput passphrase' salt' := by
  have together := mt passphraseInput_iff.mp (not_not.mpr moves)
  push Not at together
  obtain ⟨same, different⟩ := together
  exact ⟨not_and_or.mp fun both => different both.1 both.2, same⟩

/-- Salts and passphrases are told apart by their bytes, and without collisions by their keys,
skippers and ids, exactly when the boundary between salt and passphrase cannot move. -/
theorem passphrases_separate_iff (setup : Setup) (salt salt' : List UInt8)
    (passphrase passphrase' : String) :
    ((passphraseInput passphrase salt = passphraseInput passphrase' salt' →
        salt = salt' ∧ passphrase = passphrase') ↔
      ¬ BoundaryMoves salt (utf8 passphrase) salt' (utf8 passphrase')) ∧
    (CollisionFree setup (passphraseInput passphrase salt) (passphraseInput passphrase' salt') →
      ((salt ≠ salt' ∨ passphrase ≠ passphrase' →
          Separate setup (HansaKey.fromPassphrase setup.kdf passphrase salt)
            (HansaKey.fromPassphrase setup.kdf passphrase' salt')) ↔
        ¬ BoundaryMoves salt (utf8 passphrase) salt' (utf8 passphrase'))) := by
  refine ⟨passphraseInput_iff, fun free => ?_⟩
  rw [fromPassphrase_eq, fromPassphrase_eq]
  constructor
  · intro separate moves
    obtain ⟨different, same⟩ := same_input_of_moves moves
    exact (separate different).keys (by rw [same])
  · intro fixed different
    apply free.separate
    intro same
    obtain ⟨salts, passphrases⟩ := passphraseInput_iff.mpr fixed same
    exact different.elim (fun salted => salted salts) (fun passed => passed passphrases)

/-- The sample derivation takes no two short inputs of unlike content to one key. -/
theorem collisionFree_sample {input input' : List UInt8}
    (apart : toWidth 32 input = toWidth 32 input' → input = input') :
    CollisionFree sampleSetup input input' where
  keys same := apart (congrArg HansaKey.bytes same)
  skippers same := by
    have seeds : toWidth 32 (toWidth 32 input).toList = toWidth 32 (toWidth 32 input').toList :=
      congrArg Skipper.seed same
    rw [toWidth_toList, toWidth_toList] at seeds
    exact congrArg HansaKey.mk seeds
  publics same := congrArg Skipper.mk (congrArg SkipperPub.asBytes same)
  ids same := fromSkipper_sampleBuild_injective same

/-- Two hansas of one passphrase have different keys, skippers and ids. -/
theorem passphrases_separate_sample :
    Separate sampleSetup (HansaKey.fromPassphrase sampleSetup.kdf "p" (utf8 "s"))
      (HansaKey.fromPassphrase sampleSetup.kdf "p" (utf8 "t")) := by
  have free : CollisionFree sampleSetup (passphraseInput "p" (utf8 "s"))
      (passphraseInput "p" (utf8 "t")) :=
    collisionFree_sample fun same => absurd same (by decide)
  have fixed : ¬ BoundaryMoves (utf8 "s") (utf8 "p") (utf8 "t") (utf8 "p") :=
    append_pair_iff.mp fun same => absurd same (by decide)
  exact ((passphrases_separate_iff sampleSetup (utf8 "s") (utf8 "t") "p" "p").2 free).mpr fixed
    (.inl (by decide))

/-- A hansa `ab` with the passphrase `c` has the key of a hansa `a` with the passphrase `bc`,
whatever keys are derived with. -/
theorem boundary_is_lost :
    passphraseInput "c" (utf8 "ab") = passphraseInput "bc" (utf8 "a") ∧
      ¬ (utf8 "ab" = utf8 "a" ∧ "c" = "bc") ∧
      ∀ kdf, HansaKey.fromPassphrase kdf "c" (utf8 "ab") =
        HansaKey.fromPassphrase kdf "bc" (utf8 "a") := by
  have same : passphraseInput "c" (utf8 "ab") = passphraseInput "bc" (utf8 "a") := by decide
  refine ⟨same, by decide, fun kdf => ?_⟩
  rw [fromPassphrase_eq, fromPassphrase_eq, same]

end Hansa.Cli
