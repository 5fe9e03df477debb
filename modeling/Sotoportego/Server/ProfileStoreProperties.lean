import Mathlib.Data.List.Nodup
import Sotoportego.Lib.Run
import Sotoportego.Server.ProfileStore

/-!
# Memory and disk of the profile store

From its start on, a store that loses no write and has read what it does not write over has a
file that yields its list again. A failed write keeps the file, and the list has changed before
it was tried.
-/

set_option autoImplicit false

namespace Sotoportego.Server

open CText

namespace StoreHost

/-- What a store that starts now reads from the disk. -/
def freshLoad (host : StoreHost) : Status × ProfileStore := ({} : ProfileStore).load none host.disk

/-- The file yields the list again, up to the keys. -/
def Agrees (host : StoreHost) : Prop :=
  host.freshLoad.1 = .ok () ∧
    host.freshLoad.2.profiles.map VPNProfile.withoutKey =
      host.store.profiles.map VPNProfile.withoutKey

/-- Names identify the profiles. -/
structure Named (host : StoreHost) : Prop where
  nonempty : ∀ profile ∈ host.store.profiles, profile.name ≠ .empty
  distinct : (host.store.profiles.map VPNProfile.name).Nodup

/-- The list is the one in the file, or the file has not been read. -/
structure Started (host : StoreHost) : Prop where
  agrees : host.store.profiles = [] ∨ Agrees host
  named : Named host

/-- A call that fails changes nothing, one that succeeds leaves its list on the disk. -/
structure Atomic (host : StoreHost) (call : StoreCall) : Prop where
  failed : (host.call call).1 ≠ .ok () →
    (host.step call).store = host.store ∧ (host.step call).disk.profiles = host.disk.profiles
  succeeded : (host.call call).1 = .ok () → Agrees (host.step call)
  named : Named (host.step call)

/-- A write that fails has no change to lose. -/
def Lossless (host : StoreHost) : StoreCall → Prop
  | .load _ => True
  | .save profile failure => failure.isSome = true → profile.name ≠ .empty →
      host.store.profiles.find? (·.name = profile.name) = some profile
  | .delete name failure => failure.isSome = true → ∀ given ∈ name,
      ∀ profile ∈ host.store.profiles, profile.name ≠ given

/-- The profiles that the stored file has names for. -/
def filed (host : StoreHost) : List VPNProfile :=
  match host.disk.profiles with
  | some (.flattened archives) =>
      (archives.map (VPNProfile.unarchive {})).filter (·.name ≠ .empty)
  | _ => []

/-- Nothing is read that has a name twice, and nothing is given for deleted while the file has
not been read and does not yield an empty list. -/
def Informed (host : StoreHost) : StoreCall → Prop
  | .load failure => failure = none → (host.filed.map VPNProfile.name).Nodup
  | .save _ _ => True
  | .delete name _ => name ≠ none → host.store.profiles = [] →
      host.disk.profiles ≠ some .broken ∧ host.filed = []

/-! ## The disk -/

theorem agrees_written (store : ProfileStore) (disk : Disk)
    (nonempty : ∀ profile ∈ store.profiles, profile.name ≠ .empty) :
    Agrees { store, disk := (writeToDisk store.profiles none disk).2 } := by
  have archived : (store.profiles.map VPNProfile.archive).map (VPNProfile.unarchive {}) =
      store.profiles.map VPNProfile.withoutKey := by
    simp [VPNProfile.unarchive_archive]
  have kept : (store.profiles.map VPNProfile.withoutKey).filter (·.name ≠ .empty) =
      store.profiles.map VPNProfile.withoutKey := by
    rw [List.filter_eq_self]
    intro entry member
    obtain ⟨profile, stored, rfl⟩ := List.mem_map.mp member
    exact decide_eq_true (nonempty profile stored)
  refine ⟨rfl, ?_⟩
  have loaded : ({ store, disk := (writeToDisk store.profiles none disk).2 } : StoreHost).freshLoad.2 =
      { profiles := ((store.profiles.map VPNProfile.archive).map (VPNProfile.unarchive {})).filter
          (·.name ≠ .empty) } := rfl
  rw [loaded, archived, kept, List.map_map]
  rfl

theorem writeToDisk_failed (profiles : List VPNProfile) (failure : DiskFailure) (disk : Disk) :
    (writeToDisk profiles (some failure) disk).1 = .error failure.fault ∧
      (writeToDisk profiles (some failure) disk).2.profiles = disk.profiles := by
  obtain ⟨step, fault⟩ := failure
  cases step <;> exact ⟨rfl, rfl⟩

/-- Only the stored file matters to a fresh load. -/
theorem agrees_of_eq {host other : StoreHost} (store : other.store = host.store)
    (disk : other.disk.profiles = host.disk.profiles) (agrees : Agrees host) : Agrees other := by
  have same : other.freshLoad = host.freshLoad := by
    unfold freshLoad ProfileStore.load
    rw [disk]
  rwa [Agrees, same, store]

/-! ## The list -/

section Lists

variable {profiles : List VPNProfile} {profile : VPNProfile} {name : CString}

theorem names_upsert : (Table.upsert (·.name = profile.name) profile profiles).map VPNProfile.name =
    if profile.name ∈ profiles.map VPNProfile.name then profiles.map VPNProfile.name
    else profiles.map VPNProfile.name ++ [profile.name] := by
  obtain none | ⟨before, row, after, rfl, skipped, met⟩ :=
    Table.first_match (fun row : VPNProfile => decide (row.name = profile.name)) profiles
  · rw [Table.upsert_of_none none, if_neg, List.map_append, List.map_singleton]
    intro listed
    obtain ⟨row, member, same⟩ := List.mem_map.mp listed
    exact absurd same (of_decide_eq_false (none row member))
  · have same := of_decide_eq_true met
    rw [Table.upsert_split skipped met, if_pos]
    · simp [same]
    · simp [same]

theorem nodup_upsert (distinct : (profiles.map VPNProfile.name).Nodup) :
    ((Table.upsert (·.name = profile.name) profile profiles).map VPNProfile.name).Nodup := by
  rw [names_upsert]
  split
  next => exact distinct
  next fresh => exact List.nodup_append.mpr ⟨distinct, by simp, fun name listed other same => by
      rw [List.mem_singleton.mp same]
      rintro rfl
      exact fresh listed⟩

theorem upsert_eq_self : Table.upsert (·.name = profile.name) profile profiles = profiles ↔
    profiles.find? (·.name = profile.name) = some profile := by
  obtain none | ⟨before, row, after, rfl, skipped, met⟩ :=
    Table.first_match (fun row : VPNProfile => decide (row.name = profile.name)) profiles
  · rw [Table.upsert_of_none none, List.find?_eq_none.mpr fun row member => by simp [none row member]]
    simp
  · have passed : (before.find? fun row => decide (row.name = profile.name)) = none :=
      List.find?_eq_none.mpr fun row member => by simp [skipped row member]
    rw [Table.upsert_split skipped met, List.find?_append, passed, List.find?_cons, met]
    simp [eq_comm]

theorem named_upsert {store : ProfileStore} {disk : Disk} (next : Disk) (named : Named { store, disk })
    (nonempty : profile.name ≠ .empty) :
    Named { store := { profiles := Table.upsert (·.name = profile.name) profile store.profiles }
            disk := next } := by
  refine ⟨fun entry member => ?_, nodup_upsert named.distinct⟩
  obtain rfl | member := Table.mem_upsert member
  · exact nonempty
  · exact named.nonempty entry member

theorem named_eraseP {store : ProfileStore} {disk : Disk} (next : Disk)
    (named : Named { store, disk }) :
    Named { store := { profiles := store.profiles.eraseP (·.name = name) }, disk := next } :=
  ⟨fun entry member => named.nonempty entry (List.mem_of_mem_eraseP member),
    named.distinct.sublist (List.eraseP_sublist.map VPNProfile.name)⟩

end Lists

/-! ## Calls -/

section Calls

variable {host : StoreHost}

/-- A call that leaves the list and the file is atomic. -/
theorem atomic_of_unchanged {call : StoreCall} (named : Named host)
    (agrees : (host.call call).1 = .ok () → Agrees host)
    (store : (host.step call).store = host.store)
    (disk : (host.step call).disk.profiles = host.disk.profiles) : Atomic host call :=
  ⟨fun _ => ⟨store, disk⟩, fun succeeded => agrees_of_eq store disk (agrees succeeded),
    fun profile member => named.nonempty profile (store ▸ member), store ▸ named.distinct⟩

theorem atomic_of_refused {call : StoreCall} {fault : Fault} (named : Named host)
    (refused : host.call call = (.error fault, host)) : Atomic host call := by
  refine atomic_of_unchanged named (fun succeeded => ?_) ?_ ?_
  · rw [refused] at succeeded
    cases succeeded
  · rw [step, refused]
  · rw [step, refused]

theorem atomic_of_idle {call : StoreCall} (named : Named host) (agrees : Agrees host)
    (idle : host.call call = (.ok (), host)) : Atomic host call := by
  refine atomic_of_unchanged named (fun _ => agrees) ?_ ?_
  · rw [step, idle]
  · rw [step, idle]

/-- A call that writes its list to the disk without a failure is atomic. -/
theorem atomic_written {call : StoreCall} {profiles : List VPNProfile}
    (called : host.call call =
      ((writeToDisk profiles none host.disk).1,
        { store := { profiles }, disk := (writeToDisk profiles none host.disk).2 }))
    (named : Named (host.step call)) : Atomic host call := by
  refine ⟨fun failed => ?_, fun _ => ?_, named⟩
  · rw [called] at failed
    exact absurd rfl failed
  · rw [step, called] at named ⊢
    exact agrees_written _ host.disk named.nonempty

/-- What a fresh load of the file comes to. -/
theorem freshLoad_eq : host.freshLoad =
    (if host.disk.profiles = some .broken then .error .badData else .ok (),
      { profiles := host.filed }) := by
  unfold freshLoad ProfileStore.load filed
  cases host.disk.profiles with
  | none => rfl
  | some content => cases content <;> rfl

/-- An empty list agrees with a file that yields one. -/
theorem agrees_empty_iff (empty : host.store.profiles = []) :
    Agrees host ↔ host.disk.profiles ≠ some .broken ∧ host.filed = [] := by
  rw [Agrees, freshLoad_eq, empty]
  simp

/-- A started host agrees with a file that yields no profiles. -/
theorem Started.agrees_blank (started : Started host) (whole : host.disk.profiles ≠ some .broken)
    (blank : host.filed = []) : Agrees host :=
  started.agrees.elim (fun empty => (agrees_empty_iff empty).mpr ⟨whole, blank⟩) id

theorem informed_blank (blank : host.filed = []) (failure : Option Fault) :
    Informed host (.load failure) := by
  intro _
  rw [blank]
  exact List.nodup_nil

theorem atomic_load (started : Started host) (failure : Option Fault) :
    Atomic host (.load failure) ↔ Informed host (.load failure) := by
  cases failure with
  | some fault =>
      exact iff_of_true (atomic_of_refused started.named rfl) fun absent => nomatch absent
  | none =>
      have content : host.call (.load none) =
          ((host.store.load none host.disk).1,
            { host with store := (host.store.load none host.disk).2 }) := rfl
      have status : (host.store.load none host.disk).1 = host.freshLoad.1 := by
        unfold freshLoad ProfileStore.load
        cases host.disk.profiles with
        | none => rfl
        | some file => cases file <;> rfl
      cases stored : host.disk.profiles with
      | none =>
          have blank : host.filed = [] := by
            rw [filed, stored]
          have idle : host.call (.load none) = (.ok (), host) := by
            simp only [content, ProfileStore.load, stored]
          have whole : host.disk.profiles ≠ some .broken := by
            rw [stored]
            exact fun broken => nomatch broken
          exact iff_of_true (atomic_of_idle started.named (started.agrees_blank whole blank) idle)
            (informed_blank blank none)
      | some file =>
          cases file with
          | broken =>
              have blank : host.filed = [] := by
                rw [filed, stored]
              have refused : host.call (.load none) = (.error .badData, host) := by
                simp only [content, ProfileStore.load, stored]
              exact iff_of_true (atomic_of_refused started.named refused)
                (informed_blank blank none)
          | flattened archives =>
              have read : (host.store.load none host.disk).2 = { profiles := host.filed } := by
                simp only [ProfileStore.load, filed, stored]
              have after : host.step (.load none) =
                  { host with store := { profiles := host.filed } } := by
                rw [step, content, read]
              have loads : host.freshLoad = (.ok (), { profiles := host.filed }) := by
                rw [freshLoad_eq, stored, if_neg fun broken => nomatch broken]
              constructor
              · intro atomic _
                have distinct := atomic.named.distinct
                rw [after] at distinct
                exact distinct
              · intro distinct
                refine ⟨fun failed => ?_, fun _ => ?_, fun profile member => ?_, ?_⟩
                · rw [content, status, loads] at failed
                  exact absurd rfl failed
                · have fresh : freshLoad { host with store := { profiles := host.filed } } =
                      host.freshLoad := rfl
                  rw [after, Agrees, fresh, loads]
                  exact ⟨rfl, rfl⟩
                · rw [after] at member
                  simp only [filed, stored] at member
                  exact of_decide_eq_true (List.mem_filter.mp member).2
                · rw [after]
                  exact distinct rfl

theorem atomic_save (named : Named host) (profile : VPNProfile)
    (failure : Option DiskFailure) :
    Atomic host (.save profile failure) ↔ Lossless host (.save profile failure) := by
  by_cases nameless : profile.name = .empty
  · have refused : host.call (.save profile failure) = (.error .badValue, host) := by
      rw [call, ProfileStore.save, if_pos nameless]
    exact ⟨fun _ _ nonempty => absurd nameless nonempty, fun _ => atomic_of_refused named refused⟩
  · have called : host.call (.save profile failure) =
        ((writeToDisk (Table.upsert (·.name = profile.name) profile host.store.profiles) failure
            host.disk).1,
          { store := { profiles := Table.upsert (·.name = profile.name) profile host.store.profiles }
            disk := (writeToDisk (Table.upsert (·.name = profile.name) profile host.store.profiles)
              failure host.disk).2 }) := by
      rw [call, ProfileStore.save, if_neg nameless]
    have next : Named (host.step (.save profile failure)) := by
      rw [step, called]
      exact named_upsert _ named nameless
    cases failure with
    | none =>
        exact ⟨fun _ absent => (Bool.false_ne_true absent).elim,
          fun _ => atomic_written called next⟩
    | some failure =>
        obtain ⟨status, file⟩ := writeToDisk_failed
          (Table.upsert (·.name = profile.name) profile host.store.profiles) failure host.disk
        constructor
        · rintro ⟨failed, -, -⟩ - -
          obtain ⟨store, -⟩ := failed (by rw [called, status]; exact fun same => nomatch same)
          rw [step, called] at store
          exact upsert_eq_self.mp (congrArg ProfileStore.profiles store)
        · intro lossless
          have kept := upsert_eq_self.mpr (lossless rfl nameless)
          refine atomic_of_unchanged named (fun succeeded => ?_) ?_ ?_
          · rw [called, status] at succeeded
            cases succeeded
          · rw [step, called, kept]
          · rw [step, called, file]

theorem atomic_delete (started : Started host) (name : Option CString)
    (failure : Option DiskFailure) :
    Atomic host (.delete name failure) ↔
      Lossless host (.delete name failure) ∧ Informed host (.delete name failure) := by
  cases name with
  | none =>
      exact iff_of_true (atomic_of_refused started.named rfl)
        ⟨fun _ given absent => (nomatch absent), fun given => absurd rfl given⟩
  | some name =>
      cases listed : host.store.profiles.any (·.name = name) with
      | false =>
          have absent : ∀ profile ∈ host.store.profiles, profile.name ≠ name := by
            intro profile member same
            have found : host.store.profiles.any (·.name = name) = true :=
              List.any_eq_true.mpr ⟨profile, member, decide_eq_true same⟩
            rw [listed] at found
            cases found
          have idle : host.call (.delete (some name) failure) = (.ok (), host) := by
            rw [call, ProfileStore.delete, listed]
            rfl
          constructor
          · intro atomic
            refine ⟨fun _ given same profile member => ?_, fun _ empty => ?_⟩
            · cases same
              exact absent profile member
            · have agrees := atomic.succeeded (by rw [idle])
              rw [step, idle] at agrees
              exact (agrees_empty_iff empty).mp agrees
          · rintro ⟨-, informed⟩
            have agrees : Agrees host := started.agrees.elim (fun empty =>
              (agrees_empty_iff empty).mpr (informed (fun given => nomatch given) empty)) id
            exact atomic_of_idle started.named agrees idle
      | true =>
          have called : host.call (.delete (some name) failure) =
              ((writeToDisk (host.store.profiles.eraseP (·.name = name)) failure host.disk).1,
                { store := { profiles := host.store.profiles.eraseP (·.name = name) }
                  disk := (writeToDisk (host.store.profiles.eraseP (·.name = name)) failure
                    host.disk).2 }) := by
            rw [call, ProfileStore.delete, listed]
            rfl
          have named : Named (host.step (.delete (some name) failure)) := by
            rw [step, called]
            exact named_eraseP _ started.named
          have filled : Informed host (.delete (some name) failure) := by
            intro _ empty
            rw [empty] at listed
            cases listed
          rw [and_iff_left filled]
          cases failure with
          | none =>
              exact ⟨fun _ absent => (Bool.false_ne_true absent).elim,
                fun _ => atomic_written called named⟩
          | some failure =>
              obtain ⟨profile, member, found⟩ := List.any_eq_true.mp listed
              obtain ⟨status, -⟩ := writeToDisk_failed
                (host.store.profiles.eraseP (·.name = name)) failure host.disk
              constructor
              · rintro ⟨failed, -, -⟩
                obtain ⟨store, -⟩ := failed (by rw [called, status]; exact fun same => nomatch same)
                rw [step, called] at store
                have shorter : (host.store.profiles.eraseP (·.name = name)).length =
                    host.store.profiles.length - 1 := List.length_eraseP_of_mem member found
                have same := congrArg (fun store => store.profiles.length) store
                have positive := List.length_pos_of_mem member
                dsimp only at same
                omega
              · intro lossless
                exact absurd (of_decide_eq_true found) (lossless rfl name rfl profile member)

/-- What the file and the list have to do with the call. -/
def Sheltered (host : StoreHost) (call : StoreCall) : Prop := Lossless host call ∧ Informed host call

theorem atomic_iff (started : Started host) (call : StoreCall) :
    Atomic host call ↔ Sheltered host call := by
  cases call with
  | load failure => exact (atomic_load started failure).trans (and_iff_right trivial).symm
  | save profile failure =>
      exact (atomic_save started.named profile failure).trans (and_iff_left trivial).symm
  | delete name failure => exact atomic_delete started name failure

theorem started_step {call : StoreCall} (started : Started host) (atomic : Atomic host call) :
    Started (host.step call) := by
  refine ⟨?_, atomic.named⟩
  by_cases succeeded : (host.call call).1 = .ok ()
  · exact .inr (atomic.succeeded succeeded)
  · obtain ⟨store, disk⟩ := atomic.failed succeeded
    rw [store]
    exact started.agrees.imp_right (agrees_of_eq store disk)

/-- The server when it starts: an empty list, whatever the disk has. -/
theorem started_fresh (disk : Disk) : Started { disk } where
  agrees := .inl rfl
  named := { nonempty := fun _ member => (nomatch member), distinct := List.nodup_nil }

end Calls

theorem calls_atomic_iff (disk : Disk) (calls : List StoreCall) :
    Run.Along step Atomic { disk } calls ↔ Run.Along step Sheltered { disk } calls :=
  Run.along_iff
    (fun _ call sheltered started => started_step started ((atomic_iff started call).mpr sheltered))
    (fun _ call started => atomic_iff started call) (started_fresh disk)

/-! A fresh install whose disk is full when the first profile is saved. -/

namespace Sample

def office : VPNProfile where
  name := .ofBytes (Octets.ascii "office")
  configPath := .ofBytes (Octets.ascii "/boot/home/office.ovpn")

def diskFull : DiskFailure where
  step := .flatten
  fault := .other (-2147459065)

end Sample

theorem failed_save_shows_profile :
    ¬ ∀ (disk : Disk) (calls : List StoreCall), Run.Along step Atomic { disk } calls := by
  intro claim
  have along := claim {} [.load none, .save Sample.office (some Sample.diskFull)]
  have failed := along.2.1.failed (by decide +kernel)
  have store : (step {} (.save Sample.office (some Sample.diskFull))).store ≠ {} := by decide +kernel
  exact store failed.1

end StoreHost

end Sotoportego.Server
