import Sotoportego.Lib.Run
import Sotoportego.Tailscale.CidrProperties
import Sotoportego.Tailscale.Identity
import Sotoportego.WireGuard.Transparent

/-!
# Identities last

A key is stored once and read back ever after. A configuration is what was last saved in its
directory, which profiles with one sanitised name share.
-/

set_option autoImplicit false

namespace Sotoportego.Tailscale.Identity

open Octets CText
open Server (Fault)
open WireGuard

/-! ## Keys as text -/

theorem mapM_some {α β : Type} {f : α → Option β} {g : α → β} {items : List α}
    (each : ∀ item ∈ items, f item = some (g item)) : items.mapM f = some (items.map g) := by
  induction items with
  | nil => rfl
  | cons item items continued =>
      have rest := continued fun later member => each later (List.mem_cons_of_mem _ member)
      simp [List.mapM_cons, each item List.mem_cons_self, rest]

def hexPair (octet : UInt8) : Bytes :=
  [octetAt hexDigits (octet.toNat / 16), octetAt hexDigits (octet.toNat % 16)]

theorem hexNibble_digit : ∀ value < 16, hexNibble (octetAt hexDigits value) = some value := by
  decide

theorem hexDigit_ne_nul : ∀ value < 16, octetAt hexDigits value ≠ 0 := by
  decide

theorem bytes_toHex (source : Bytes) : (toHex source).bytes = source.flatMap hexPair := by
  refine ofBytes_bytes fun nul => ?_
  obtain ⟨octet, -, member⟩ := List.mem_flatMap.mp nul
  have high : octet.toNat / 16 < 16 := by
    have bound := octet.toNat_lt
    omega
  have low : octet.toNat % 16 < 16 := Nat.mod_lt _ (by decide)
  simp only [List.mem_cons, List.not_mem_nil, or_false] at member
  cases member with
  | inl same => exact hexDigit_ne_nul _ high same.symm
  | inr same => exact hexDigit_ne_nul _ low same.symm

theorem length_hexPairs (source : Bytes) : (source.flatMap hexPair).length = source.length * 2 := by
  induction source with
  | nil => rfl
  | cons octet source continued =>
      rw [List.flatMap_cons, List.length_append, continued, List.length_cons]
      exact (Nat.add_comm _ _).trans (Nat.succ_mul _ _).symm

theorem octetAt_hexPairs {source : Bytes} {position : Nat} (inside : position < source.length) :
    octetAt (source.flatMap hexPair) (2 * position) =
        octetAt hexDigits ((octetAt source position).toNat / 16) ∧
      octetAt (source.flatMap hexPair) (2 * position + 1) =
        octetAt hexDigits ((octetAt source position).toNat % 16) := by
  induction source generalizing position with
  | nil => cases inside
  | cons octet source continued =>
      cases position with
      | zero => exact ⟨rfl, rfl⟩
      | succ position => exact continued (Nat.lt_of_succ_lt_succ inside)

/-- What `ToHex` writes, `FromHex` reads. -/
theorem fromHex_toHex {size : Nat} (buffer : Buffer size) :
    fromHex size (toHex buffer.bytes) = some buffer := by
  have exact_ : (toHex buffer.bytes).bytes.length = size * 2 := by
    rw [bytes_toHex, length_hexPairs, buffer.length_bytes]
  rw [fromHex, if_pos exact_]
  have each : ∀ position ∈ List.range size, (do
      let high ← hexNibble (octetAt (toHex buffer.bytes).bytes (2 * position))
      let low ← hexNibble (octetAt (toHex buffer.bytes).bytes (2 * position + 1))
      return UInt8.ofNat (high * 16 + low)) = some (octetAt buffer.bytes position) := by
    intro position member
    have inside : position < buffer.bytes.length :=
      (List.mem_range.mp member).trans_eq buffer.length_bytes.symm
    have bound := (octetAt buffer.bytes position).toNat_lt
    obtain ⟨high, low⟩ := octetAt_hexPairs inside
    rw [bytes_toHex, high, low, hexNibble_digit _ (by omega),
      hexNibble_digit _ (Nat.mod_lt _ (by decide))]
    have whole : (octetAt buffer.bytes position).toNat / 16 * 16 +
        (octetAt buffer.bytes position).toNat % 16 = (octetAt buffer.bytes position).toNat :=
      Nat.div_add_mod' _ _
    show some (UInt8.ofNat _) = _
    rw [whole, UInt8.ofNat_toNat]
  rw [mapM_some each]
  have listed : (List.range size).map (octetAt buffer.bytes) = buffer.bytes := by
    refine List.ext_getElem (by simp) fun position _ inside => ?_
    simp [octetAt, List.getElem?_eq_getElem inside]
  show some (slice size ((List.range size).map (octetAt buffer.bytes)) 0) = _
  rw [listed, slice_bytes]

/-! ## The keystore -/

/-- What `AddKey` may have done to a keystore: new identifiers behind the old ones. -/
inductive Grows : List (Bytes × CString) → List (Bytes × CString) → Prop where
  | refl {keystore} : Grows keystore keystore
  | add {before keystore id password} (grown : Grows before keystore)
      (fresh : keystore.lookup id = none) : Grows before (keystore ++ [(id, password)])

theorem Grows.trans {first second third : List (Bytes × CString)} (before : Grows first second)
    (after : Grows second third) : Grows first third := by
  induction after with
  | refl => exact before
  | add _ fresh continued => exact .add continued fresh

/-- A stored key stays. -/
theorem Grows.lookup {before after : List (Bytes × CString)} (grown : Grows before after)
    {id : Bytes} {password : CString} (stored : before.lookup id = some password) :
    after.lookup id = some password := by
  induction grown with
  | refl => exact stored
  | add _ _ continued => rw [List.lookup_append, continued, Option.some_or]

namespace TSIdentity

variable {crypto : Crypto}

/-- The keystore has the key, and its public half is derived from it. -/
def Stored (crypto : Crypto) (keystore : List (Bytes × CString)) (id : Bytes) (key : Key25519) :
    Prop :=
  ∃ password, keystore.lookup id = some password ∧ fromHex 32 password = some key.priv ∧
    crypto.dhPublic key.priv = some key.pub

theorem Stored.unique {keystore : List (Bytes × CString)} {id : Bytes} {key other : Key25519}
    (stored : Stored crypto keystore id key) (also : Stored crypto keystore id other) :
    key = other := by
  obtain ⟨password, found, priv, pub⟩ := stored
  obtain ⟨same, again, otherPriv, otherPub⟩ := also
  obtain rfl : password = same := Option.some.inj (found.symm.trans again)
  have privs : key.priv = other.priv := Option.some.inj (priv.symm.trans otherPriv)
  rw [← privs] at otherPub
  have pubs : key.pub = other.pub := Option.some.inj (pub.symm.trans otherPub)
  cases key
  cases other
  cases privs
  cases pubs
  rfl

theorem Stored.grown {before after : List (Bytes × CString)} (grown : Grows before after)
    {id : Bytes} {key : Key25519} (stored : Stored crypto before id key) :
    Stored crypto after id key := by
  obtain ⟨password, found, halves⟩ := stored
  exact ⟨password, grown.lookup found, halves⟩

/-- The specification of `_LoadOrCreateRole`. -/
theorem loadOrCreateRole_spec (keystore : List (Bytes × CString)) (id : Bytes)
    (answer : KeyAnswer crypto) :
    Grows keystore (loadOrCreateRole crypto keystore id answer).2 ∧
      ∀ key created, (loadOrCreateRole crypto keystore id answer).1 = .ok (key, created) →
        Stored crypto (loadOrCreateRole crypto keystore id answer).2 id key := by
  unfold loadOrCreateRole
  split
  · next password found =>
    split
    · exact ⟨.refl, nofun⟩
    · next priv decoded =>
      split
      · exact ⟨.refl, nofun⟩
      · next pub derived =>
        refine ⟨.refl, fun key created loaded => ?_⟩
        cases loaded
        split at found
        · exact ⟨password, found, decoded, derived⟩
        · cases found
  · split
    · exact ⟨.refl, nofun⟩
    · next pair _ =>
      split
      · exact ⟨.refl, nofun⟩
      · split
        · exact ⟨.refl, nofun⟩
        · next absent =>
          have fresh : keystore.lookup id = none := Option.not_isSome_iff_eq_none.mp absent
          refine ⟨.add .refl fresh, fun key created made => ?_⟩
          cases made
          refine ⟨toHex pair.priv.bytes, ?_, fromHex_toHex pair.priv, pair.valid⟩
          rw [List.lookup_append, fresh, Option.none_or]
          simp

def key (identity : TSIdentity) : KeyRole → Key25519
  | .machine => identity.machine
  | .node => identity.node
  | .disco => identity.disco

/-- All three keys are in the keystore, under the profile's own identifiers. -/
def Kept (crypto : Crypto) (keystore : List (Bytes × CString)) (identity : TSIdentity) : Prop :=
  ∀ role, Stored crypto keystore (keystoreId identity.profileName role) (identity.key role)

theorem Kept.grown {before after : List (Bytes × CString)} (grown : Grows before after)
    {identity : TSIdentity} (kept : Kept crypto before identity) : Kept crypto after identity :=
  fun role => (kept role).grown grown

/-- A profile has one identity. -/
theorem Kept.unique {keystore : List (Bytes × CString)} {identity other : TSIdentity}
    (kept : Kept crypto keystore identity) (also : Kept crypto keystore other)
    (same : identity.profileName = other.profileName) : identity = other := by
  have machine := (kept .machine).unique (same ▸ also .machine)
  have node := (kept .node).unique (same ▸ also .node)
  have disco := (kept .disco).unique (same ▸ also .disco)
  cases identity
  cases other
  cases same
  cases machine
  cases node
  cases disco
  rfl

/-- The files of public keys that are not torn are those of identities that are kept. -/
def Filed (crypto : Crypto) (host : IdentityHost) : Prop :=
  ∀ dir file, (dir, .message file) ∈ host.publicFiles →
    ∃ identity, Kept crypto host.keystore identity ∧
      dir = sanitizeComponent identity.profileName ∧ file = identity.publicFile

theorem Filed.grown {host : IdentityHost} {keystore : List (Bytes × CString)}
    (grown : Grows host.keystore keystore) (filed : Filed crypto host) :
    Filed crypto { host with keystore } := by
  intro dir file member
  obtain ⟨identity, kept, same⟩ := filed dir file member
  exact ⟨identity, kept.grown grown, same⟩

theorem Filed.written {host : IdentityHost} {identity : TSIdentity} (filed : Filed crypto host)
    (kept : Kept crypto host.keystore identity) (writing : Writing) :
    Filed crypto { host with
      publicFiles := identity.writePublicFile writing host.publicFiles } := by
  cases writing with
  | unopened => exact filed
  | cut =>
      intro dir file member
      obtain torn | older := List.mem_cons.mp member
      · cases torn
      · exact filed dir file older
  | whole =>
      intro dir file member
      obtain new | older := List.mem_cons.mp member
      · cases new
        exact ⟨identity, kept, rfl, rfl⟩
      · exact filed dir file older

/-- The specification of `LoadOrCreate`. -/
theorem loadOrCreate_spec (profileName : Option CString) (answers : KeyRole → KeyAnswer crypto)
    (writing : Writing) (host : IdentityHost) (filed : Filed crypto host) :
    Grows host.keystore (loadOrCreate crypto profileName answers writing host).2.keystore ∧
      Filed crypto (loadOrCreate crypto profileName answers writing host).2 ∧
      ∀ identity any, (loadOrCreate crypto profileName answers writing host).1 =
          .ok (identity, any) →
        Kept crypto (loadOrCreate crypto profileName answers writing host).2.keystore identity ∧
          profileName = some identity.profileName := by
  unfold loadOrCreate
  cases profileName with
  | none => exact ⟨.refl, filed, nofun⟩
  | some profileName =>
      dsimp only
      split
      · exact ⟨.refl, filed, nofun⟩
      · have first := loadOrCreateRole_spec host.keystore (keystoreId profileName .machine)
          (answers .machine)
        split
        · next fault keystore refused =>
          rw [refused] at first
          exact ⟨first.1, filed.grown first.1, nofun⟩
        · next machine newMachine keystore loaded =>
          rw [loaded] at first
          have second := loadOrCreateRole_spec keystore (keystoreId profileName .node)
            (answers .node)
          split
          · next fault later refused =>
            rw [refused] at second
            have grown := first.1.trans second.1
            exact ⟨grown, filed.grown grown, nofun⟩
          · next node newNode later loadedNode =>
            rw [loadedNode] at second
            have third := loadOrCreateRole_spec later (keystoreId profileName .disco)
              (answers .disco)
            split
            · next fault last refused =>
              rw [refused] at third
              have grown := (first.1.trans second.1).trans third.1
              exact ⟨grown, filed.grown grown, nofun⟩
            · next disco newDisco last loadedDisco =>
              rw [loadedDisco] at third
              have grown := (first.1.trans second.1).trans third.1
              have kept : Kept crypto last { profileName, machine, node, disco } := by
                intro role
                cases role with
                | machine => exact (first.2 machine newMachine rfl).grown (second.1.trans third.1)
                | node => exact (second.2 node newNode rfl).grown third.1
                | disco => exact third.2 disco newDisco rfl
              refine ⟨grown, ?_, fun identity any made => ?_⟩
              · have later := filed.grown grown
                dsimp only
                split
                · exact later.written kept writing
                · exact later
              · cases made
                exact ⟨kept, rfl⟩

end TSIdentity

/-! ## Runs -/

namespace Enrolled

open Identity.TSIdentity

variable {crypto : Crypto} {enrolled : Enrolled}

/-- What was established is in the keystore, and what is filed was established or is kept. -/
structure Sound (crypto : Crypto) (before : List (Bytes × CString)) (enrolled : Enrolled) :
    Prop where
  grows : Grows before enrolled.host.keystore
  kept : ∀ result ∈ enrolled.established, Kept crypto enrolled.host.keystore result.1
  filed : Filed crypto enrolled.host

theorem sound_step {before : List (Bytes × CString)} (call : IdentityCall crypto)
    (sound : Sound crypto before enrolled) : Sound crypto before (enrolled.step call) := by
  have spec := loadOrCreate_spec call.profileName call.answers call.writing enrolled.host sound.filed
  unfold step
  split
  · next result host established =>
    rw [established] at spec
    obtain ⟨grown, filed, kept⟩ := spec
    refine ⟨sound.grows.trans grown, fun other member => ?_, filed⟩
    cases List.mem_append.mp member with
    | inl earlier => exact (sound.kept other earlier).grown grown
    | inr now =>
        obtain rfl := List.mem_singleton.mp now
        exact (kept other.1 other.2 rfl).1
  · next fault host refused =>
    rw [refused] at spec
    exact ⟨sound.grows.trans spec.1, fun other member => (sound.kept other member).grown spec.1,
      spec.2.1⟩

theorem sound_run (keystore : List (Bytes × CString)) (calls : List (IdentityCall crypto)) :
    Sound crypto keystore (Run.run step { host := { keystore } } calls) := by
  have preserved : ∀ (enrolled : Enrolled) (call : IdentityCall crypto), True →
      Sound crypto keystore enrolled → Sound crypto keystore (enrolled.step call) :=
    fun _ call _ sound => sound_step call sound
  exact Run.invariant_run preserved (fun _ _ => trivial) ⟨.refl, nofun, nofun⟩

/-- In every run of `LoadOrCreate` over profiles, with the keystore and the key generator failing
at will: a stored key is never replaced, every success for a profile returns the one identity
that the keystore still has, and a file of public keys that was written whole is that of a
profile in its directory. -/
theorem identities_last (crypto : Crypto) (keystore : List (Bytes × CString))
    (calls : List (IdentityCall crypto)) :
    let enrolled := Run.run step { host := { keystore } } calls
    (∀ id password, keystore.lookup id = some password →
      enrolled.host.keystore.lookup id = some password) ∧
    (∀ first ∈ enrolled.established, ∀ second ∈ enrolled.established,
      first.1.profileName = second.1.profileName → first.1 = second.1) ∧
    (∀ result ∈ enrolled.established, Kept crypto enrolled.host.keystore result.1) ∧
    ∀ result ∈ enrolled.established, ∀ file,
      enrolled.host.publicFiles.lookup (sanitizeComponent result.1.profileName) =
        some (.message file) →
      (∀ other, Kept crypto enrolled.host.keystore other →
        sanitizeComponent other.profileName = sanitizeComponent result.1.profileName →
          other.profileName = result.1.profileName) →
      file = result.1.publicFile := by
  intro enrolled
  have sound : Sound crypto keystore enrolled := sound_run keystore calls
  refine ⟨fun id password stored => sound.grows.lookup stored,
    fun first member second also same =>
      (sound.kept first member).unique (sound.kept second also) same,
    sound.kept, fun result member file found alone => ?_⟩
  obtain ⟨front, back, split, -⟩ := List.lookup_eq_some_iff.mp found
  have listed : (sanitizeComponent result.1.profileName, .message file) ∈
      enrolled.host.publicFiles := by
    rw [split]
    simp
  obtain ⟨other, kept, dir, rfl⟩ := sound.filed _ _ listed
  have named := alone other kept dir.symm
  rw [kept.unique (sound.kept result member) named]

end Enrolled

/-! ## What a call creates -/

section Created

variable {crypto : Crypto}

/-- A profile and a role have an identifier of their own, whatever the name is. -/
theorem keystoreId_inj {profile other : CString} {role otherRole : KeyRole}
    (same : keystoreId profile role = keystoreId other otherRole) :
    profile = other ∧ role = otherRole := by
  have reversed := congrArg List.reverse same
  simp only [keystoreId, List.reverse_append, List.append_assoc] at reversed
  have roles : role = otherRole := by
    cases role with
    | machine => cases otherRole with
      | machine => rfl
      | node | disco => exact absurd reversed (by simp [KeyRole.name, ascii])
    | node => cases otherRole with
      | node => rfl
      | machine | disco => exact absurd reversed (by simp [KeyRole.name, ascii])
    | disco => cases otherRole with
      | disco => rfl
      | machine | node => exact absurd reversed (by simp [KeyRole.name, ascii])
  refine ⟨?_, roles⟩
  rw [roles] at same
  have bytes : profile.bytes = other.bytes :=
    List.append_cancel_left (List.append_cancel_right (List.append_cancel_right same))
  cases profile
  cases other
  cases bytes
  rfl

/-- A role is created where its identifier is not in the keystore, which only then changes. -/
theorem created_role {keystore : List (Bytes × CString)} {id : Bytes} {answer : KeyAnswer crypto}
    {key : Key25519} {created : Bool} {next : List (Bytes × CString)}
    (loaded : TSIdentity.loadOrCreateRole crypto keystore id answer = (.ok (key, created), next)) :
    (created = true ↔ keystore.lookup id = none) ∧
      ∀ other, other ≠ id → next.lookup other = keystore.lookup other := by
  unfold TSIdentity.loadOrCreateRole at loaded
  split at loaded
  · next password found =>
    split at found
    · split at loaded
      · cases loaded
      · split at loaded
        · cases loaded
        · cases loaded
          simp [found]
    · cases found
  · split at loaded
    · cases loaded
    · split at loaded
      · cases loaded
      · split at loaded
        · cases loaded
        · next absent =>
          cases loaded
          refine ⟨⟨fun _ => Option.not_isSome_iff_eq_none.mp absent, fun _ => rfl⟩,
            fun other differs => ?_⟩
          rw [List.lookup_append]
          simp [List.lookup_cons, beq_eq_false_iff_ne.mpr differs]

/-- `outCreatedAny` is set exactly where one of the three keys was not there before. -/
theorem created_any_iff {profileName : Option CString} {answers : KeyRole → KeyAnswer crypto}
    {writing : Writing} {any : Bool} {host : IdentityHost} {identity : TSIdentity}
    (made : (TSIdentity.loadOrCreate crypto profileName answers writing host).1 =
      .ok (identity, any)) :
    any = true ↔ ∃ role, host.keystore.lookup (keystoreId identity.profileName role) = none := by
  unfold TSIdentity.loadOrCreate at made
  split at made
  · cases made
  · next profileName =>
    split at made
    · cases made
    · split at made
      · cases made
      · next machine newMachine keystore loaded =>
        split at made
        · cases made
        · next node newNode later loadedNode =>
          split at made
          · cases made
          · next disco newDisco last loadedDisco =>
            cases made
            have differ (role other : KeyRole) (apart : role ≠ other) :
                keystoreId profileName role ≠ keystoreId profileName other :=
              fun same => apart (keystoreId_inj same).2
            have first := created_role loaded
            have second := created_role loadedNode
            have third := created_role loadedDisco
            rw [first.2 _ (differ .node .machine nofun)] at second
            rw [second.2 _ (differ .disco .node nofun),
              first.2 _ (differ .disco .machine nofun)] at third
            simp only [Bool.or_eq_true, first.1, second.1, third.1]
            constructor
            · rintro ((absent | absent) | absent)
              · exact ⟨.machine, absent⟩
              · exact ⟨.node, absent⟩
              · exact ⟨.disco, absent⟩
            · rintro ⟨role, absent⟩
              cases role with
              | machine => exact .inl (.inl absent)
              | node => exact .inl (.inr absent)
              | disco => exact .inr absent

theorem created_any_iff_fresh : ∃ identity : TSIdentity,
    (TSIdentity.loadOrCreate Transparent.crypto (some (text "office"))
      (fun _ => { generated := some (Transparent.pair 1) }) .whole {}).1 = .ok (identity, true) ∧
    (true = true ↔ ∃ role, ({} : IdentityHost).keystore.lookup
      (keystoreId identity.profileName role) = none) := by
  obtain ⟨identity, made⟩ : ∃ identity : TSIdentity,
      (TSIdentity.loadOrCreate Transparent.crypto (some (text "office"))
        (fun _ => { generated := some (Transparent.pair 1) }) .whole {}).1 = .ok (identity, true) :=
    ⟨_, rfl⟩
  exact ⟨identity, made, created_any_iff made⟩

end Created

/-! ## Configurations -/

/-- One component of a path, which names neither a hidden entry nor a parent. -/
structure SafeComponent (component : Bytes) : Prop where
  filled : component ≠ []
  plain : ∀ octet ∈ component, isPlain octet = true
  visible : component.head? ≠ some 46

theorem safe_sanitizeComponent (name : CString) : SafeComponent (sanitizeComponent name) := by
  have plain : ∀ octet ∈ name.bytes.map fun octet => if isPlain octet then octet else 95,
      isPlain octet = true := by
    intro octet member
    obtain ⟨source, -, rfl⟩ := List.mem_map.mp member
    split
    · next kept => exact kept
    · decide
  unfold sanitizeComponent
  generalize (name.bytes.map fun octet => if isPlain octet then octet else 95) = folded at plain
  dsimp only
  split
  · exact ⟨by simp, by decide, by decide⟩
  · next filled =>
    refine ⟨filled, fun octet member => plain octet ((List.dropWhile_suffix _).subset member),
      fun hidden => ?_⟩
    have first := List.head?_dropWhile_not (fun octet : UInt8 => decide (octet = 46)) folded
    rw [hidden] at first
    simp at first

/-- A name that is a safe component names its own directory. -/
theorem sanitizeComponent_safe {name : CString} (safe : SafeComponent name.bytes) :
    sanitizeComponent name = name.bytes := by
  have kept : (name.bytes.map fun octet => if isPlain octet then octet else 95) = name.bytes := by
    refine (List.map_congr_left fun octet member => ?_).trans (List.map_id _)
    rw [if_pos (safe.plain octet member)]
    rfl
  unfold sanitizeComponent
  rw [kept]
  cases bytes : name.bytes with
  | nil => exact absurd bytes safe.filled
  | cons first rest =>
      have visible : first ≠ 46 := by
        intro dot
        refine safe.visible ?_
        rw [bytes, dot]
        rfl
      simp [visible]

namespace TSConfig

theorem length_normalized {url : CString} (slash : url.bytes.getLast? = some 47) :
    (CString.ofBytes url.bytes.dropLast).bytes.length < url.bytes.length := by
  have filled : url.bytes ≠ [] := by
    intro empty
    rw [empty] at slash
    cases slash
  have shorter : url.bytes.dropLast.length < url.bytes.length := by
    rw [List.length_dropLast]
    have positive := List.length_pos_iff.mpr filled
    omega
  exact Nat.lt_of_le_of_lt (List.takeWhile_prefix _).length_le shorter

/-- A URL survives being set again exactly when it is there and does not end with a slash. -/
theorem normalized_iff (url : CString) :
    normalized url = url ↔ url ≠ .empty ∧ url.bytes.getLast? ≠ some 47 := by
  unfold normalized
  split
  · next empty =>
    subst empty
    exact ⟨fun same => absurd (congrArg CString.bytes same) (by decide),
      fun both => absurd rfl both.1⟩
  · next filled =>
    split
    · next slash =>
      refine ⟨fun same => ?_, fun both => absurd slash both.2⟩
      have shorter := length_normalized slash
      rw [same] at shorter
      exact absurd shorter (Nat.lt_irrefl _)
    · next plain => exact ⟨fun _ => ⟨filled, plain⟩, fun _ => rfl⟩

end TSConfig

namespace ConfigHost

variable {host : ConfigHost}

/-- The disk has what was saved, the latest first, in directories of profiles. -/
structure Faithful (host : ConfigHost) : Prop where
  disk : host.disk =
    (host.saves.map fun saved => (saved.1, ConfigFile.message (some saved.2))).reverse
  directory : ∀ saved ∈ host.saves, ∃ name, saved.1 = sanitizeComponent name

theorem faithful_step (call : ConfigCall) (faithful : Faithful host) :
    Faithful (host.step call) := by
  cases call with
  | setControlURL url => exact ⟨faithful.disk, faithful.directory⟩
  | load profileName failure => exact ⟨faithful.disk, faithful.directory⟩
  | save failure =>
      unfold step TSConfig.save
      dsimp only
      by_cases unnamed : host.config.profileName = .empty
      · rw [if_pos unnamed]
        exact faithful
      · rw [if_neg unnamed]
        cases failure with
        | some refused => exact faithful
        | none =>
            refine ⟨by simp [faithful.disk], fun saved member => ?_⟩
            cases List.mem_append.mp member with
            | inl earlier => exact faithful.directory saved earlier
            | inr now => exact ⟨_, congrArg Prod.fst (List.mem_singleton.mp now)⟩

theorem faithful_run (calls : List ConfigCall) : Faithful (Run.run step {} calls) := by
  have preserved : ∀ (host : ConfigHost) (call : ConfigCall), True →
      Faithful host → Faithful (host.step call) :=
    fun _ call _ faithful => faithful_step call faithful
  exact Run.invariant_run preserved (fun _ _ => trivial) ⟨rfl, nofun⟩

/-- What was last saved in a directory. -/
def latest (host : ConfigHost) (directory : Bytes) : Option CString :=
  ((host.saves.filter fun saved => saved.1 = directory).getLast?).map Prod.snd

theorem lookup_faithful (faithful : Faithful host) (directory : Bytes) :
    host.disk.lookup directory =
      (host.latest directory).map fun url => .message (some url) := by
  rw [faithful.disk, latest]
  generalize host.saves = saves
  induction saves using List.reverseRecOn with
  | nil => rfl
  | append_singleton saves saved continued =>
      rw [List.map_append, List.reverse_append, List.filter_append]
      by_cases same : saved.1 = directory
      · subst same
        simp
      · have other : (directory == saved.1) = false := beq_eq_false_iff_ne.mpr (Ne.symm same)
        simp [List.lookup_cons, other, same, continued]

/-- In every run, a configuration that is loaded is the one last saved by any profile whose name
is sanitised to the same component, without one trailing slash, or the default; a saved URL
comes back exactly when it is not empty and has no trailing slash. -/
theorem config_reloads (calls : List ConfigCall) (profileName : CString)
    (named : profileName ≠ .empty) :
    let host := Run.run step {} calls
    host.config.load (some profileName) none host.disk =
        (.ok (), {
          profileName
          controlURL := ((host.latest (sanitizeComponent profileName)).map
            TSConfig.normalized).getD kDefaultControlURL }) ∧
      (∀ entry ∈ host.disk,
        SafeComponent entry.1 ∧ sanitizeComponent (.ofBytes entry.1) = entry.1) ∧
      ∀ url, host.latest (sanitizeComponent profileName) = some url →
        ((host.config.load (some profileName) none host.disk).2.controlURL = url ↔
          url ≠ .empty ∧ url.bytes.getLast? ≠ some 47) := by
  intro host
  have faithful : Faithful host := faithful_run calls
  have found := lookup_faithful faithful (sanitizeComponent profileName)
  have loaded : host.config.load (some profileName) none host.disk =
      (.ok (), {
        profileName
        controlURL := ((host.latest (sanitizeComponent profileName)).map
          TSConfig.normalized).getD kDefaultControlURL }) := by
    unfold TSConfig.load
    dsimp only
    rw [if_neg named, found]
    cases host.latest (sanitizeComponent profileName) with
    | none => rfl
    | some url => rfl
  refine ⟨loaded, fun entry member => ?_, fun url last => ?_⟩
  · rw [faithful.disk, List.mem_reverse] at member
    obtain ⟨saved, stored, rfl⟩ := List.mem_map.mp member
    obtain ⟨name, same⟩ := faithful.directory saved stored
    have safe := safe_sanitizeComponent name
    have bytes : (CString.ofBytes (sanitizeComponent name)).bytes = sanitizeComponent name :=
      ofBytes_bytes fun nul => absurd (safe.plain 0 nul) (by decide)
    dsimp only
    rw [same]
    exact ⟨safe, (sanitizeComponent_safe (bytes.symm ▸ safe)).trans bytes⟩
  · rw [loaded, last]
    exact TSConfig.normalized_iff url

theorem config_reloads_office :
    let host := Run.run step {}
      [.load (some (text "office")) none, .setControlURL (some (text "https://hs.example//")),
        .save none, .setControlURL none]
    (host.config.load (some (text "office")) none host.disk).2.controlURL =
      text "https://hs.example" := by
  have loaded := (config_reloads
    [.load (some (text "office")) none, .setControlURL (some (text "https://hs.example//")),
      .save none, .setControlURL none] (text "office") (by decide)).1
  dsimp only at loaded ⊢
  rw [loaded]
  decide

end ConfigHost

end Sotoportego.Tailscale.Identity
