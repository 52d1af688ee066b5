import Orch.Dns.Workloads

namespace Orch

/-- What is assumed of the DNS server. The normal form of a record keeps its type
and has a name that depends on the zone and the name only, and the key of a
record has its name, its type and its data in it. A record that is saved takes
the place of the one with its key, and a deletion that fails leaves the store as
it is. -/
structure RecordLaws (lib : DnsLibrary) where
  canonicalName : String → String → String
  Has : lib.Store → DnsRecord → Prop
  normal : ∀ {rec norm}, lib.normalizeRecord rec = .ok norm →
    norm.name = canonicalName rec.zone rec.name ∧ norm.rrType = rec.rrType
  key_inj : ∀ {rec other}, lib.key rec = lib.key other →
    rec.name = other.name ∧ rec.rrType = other.rrType ∧ rec.data = other.data
  saved : ∀ {choice store rec other}, (lib.saveRecord choice store rec).2 = .ok () →
    (Has (lib.saveRecord choice store rec).1 other ↔ other = rec ∨ lib.key other ≠ lib.key rec ∧ Has store other)
  deleted : ∀ {choice store rec other}, (lib.deleteRecord choice store rec).2 = .ok () →
    (Has (lib.deleteRecord choice store rec).1 other ↔ lib.key other ≠ lib.key rec ∧ Has store other)
  undeleted : ∀ {choice store rec}, (lib.deleteRecord choice store rec).2 ≠ .ok () →
    (lib.deleteRecord choice store rec).1 = store

/-- What happens to the DNS service of a node: calls, each with how the store
takes its writes, and restarts. -/
inductive DnsEvent (lib : DnsLibrary) where
  | upsert (nspace workload ipv4 : String) (saving deleting : lib.Choice)
  | remove (nspace workload : String) (deleting : lib.Choice)
  | restart (seeding : lib.Choice)

def zoneRecord (zone : String) : DnsRecord := ⟨zone, zone, 60, typeA, "127.0.0.1"⟩

variable {lib : DnsLibrary}

namespace DnsService

def restarted (s : DnsService lib) (seeding : lib.Choice) : DnsService lib × Check :=
  match s.store with
  | none => ({ s with workloadRecords := ∅ }, .pass)
  | some store =>
    match lib.saveRecord seeding store (zoneRecord s.zone) with
    | (store, .ok _) => ({ s with store := some store, workloadRecords := ∅ }, .pass)
    | (store, .error err) => ({ s with store := some store, workloadRecords := ∅ }, .error (.wrapf err "seed zone record"))

def step (s : DnsService lib) : DnsEvent lib → DnsService lib × Check
  | .upsert nspace workload ipv4 saving deleting => s.upsertWorkloadA saving deleting nspace workload ipv4
  | .remove nspace workload deleting => s.removeWorkloadA deleting nspace workload
  | .restart seeding => s.restarted seeding

def after (zone : String) (store : lib.Store) (events : List (DnsEvent lib)) : DnsService lib :=
  events.foldl (fun s event => (s.step event).1) { enabled := true, zone, store := some store }

/-- The record that the service remembers for a workload. -/
def remembered (s : DnsService lib) (nspace workload : String) : Option DnsRecord :=
  s.workloadRecords.lookup (workloadRecordKey nspace workload)

end DnsService

variable (laws : RecordLaws lib)

/-- The address records in a store under the name of a workload. -/
def RecordLaws.Publishes (zone nspace workload : String) (store : lib.Store) (rec : DnsRecord) : Prop :=
  laws.Has store rec ∧ rec.name = laws.canonicalName zone (workloadServiceFQDN nspace workload zone) ∧ rec.rrType = typeA

/-- A call that has returned without an error has left the store right: with the
given address and no other after an upsert, with none after a removal. -/
def LeftRight (s : DnsService lib) : DnsEvent lib → Prop
  | event@(.upsert nspace workload ipv4 _ _) => (s.step event).2 = .ok () → ∀ store ∈ (s.step event).1.store,
      ∃ norm, lib.normalizeRecord (workloadRecord s.zone nspace workload ipv4) = .ok norm ∧
        ∃ only, only.data = norm.data ∧ ∀ rec, laws.Publishes s.zone nspace workload store rec ↔ rec = only
  | event@(.remove nspace workload _) => (s.step event).2 = .ok () → ∀ store ∈ (s.step event).1.store,
      ∀ rec, ¬ laws.Publishes s.zone nspace workload store rec
  | .restart _ => True

/-- Before a call that will return without an error, every address under the
workload's name is the one that the service remembers for it, and can be
deleted, or already the one it will have. -/
def Mirrored (s : DnsService lib) : DnsEvent lib → Prop
  | .upsert nspace workload ipv4 saving deleting => trimSpace ipv4 ≠ "" →
      ∀ norm, lib.normalizeRecord (workloadRecord s.zone nspace workload ipv4) = .ok norm →
        ∀ store ∈ s.store, (lib.saveRecord saving store norm).2 = .ok () →
          ∀ rec, laws.Publishes s.zone nspace workload store rec → lib.key rec = lib.key norm ∨
            ∃ prev ∈ s.remembered nspace workload, lib.key prev = lib.key rec ∧
              (lib.deleteRecord deleting (lib.saveRecord saving store norm).1 prev).2 = .ok ()
  | .remove nspace workload deleting => ∀ store ∈ s.store,
      (∀ prev ∈ s.remembered nspace workload, (lib.deleteRecord deleting store prev).2 = .ok ()) →
        ∀ rec, laws.Publishes s.zone nspace workload store rec →
          ∃ prev ∈ s.remembered nspace workload, lib.key prev = lib.key rec
  | .restart _ => True

/-- The store once a new record has been saved and the one before it, if it is
another, has been deleted as far as that goes. -/
def DnsLibrary.replaced (lib : DnsLibrary) (saving deleting : lib.Choice) (store : lib.Store) (prev : Option DnsRecord)
    (norm : DnsRecord) : lib.Store :=
  match prev with
  | some prev =>
    if lib.key prev ≠ lib.key norm then (lib.deleteRecord deleting (lib.saveRecord saving store norm).1 prev).1
    else (lib.saveRecord saving store norm).1
  | none => (lib.saveRecord saving store norm).1

section Calls

variable {laws} {s : DnsService lib} {store : lib.Store} (saving deleting : lib.Choice) {norm rec : DnsRecord}

/-- What a successful upsert leaves in the store. -/
theorem RecordLaws.has_replaced {prev : Option DnsRecord} (saves : (lib.saveRecord saving store norm).2 = .ok ()) :
    laws.Has (lib.replaced saving deleting store prev norm) rec ↔ rec = norm ∨ lib.key rec ≠ lib.key norm ∧
      laws.Has store rec ∧ ¬ ∃ old ∈ prev, lib.key old = lib.key rec ∧
        (lib.deleteRecord deleting (lib.saveRecord saving store norm).1 old).2 = .ok () := by
  unfold DnsLibrary.replaced
  cases prev with
  | none => simp [laws.saved saves]
  | some old =>
    dsimp only
    by_cases shared : lib.key old = lib.key norm
    · rw [if_neg (not_not.mpr shared), laws.saved saves]
      refine or_congr_right (and_congr_right fun other => ⟨fun found => ⟨found, ?_⟩, And.left⟩)
      rintro ⟨_, ⟨⟩, same, -⟩
      exact other (same.symm.trans shared)
    rw [if_pos shared]
    by_cases deletes : (lib.deleteRecord deleting (lib.saveRecord saving store norm).1 old).2 = .ok ()
    · rw [laws.deleted deletes, laws.saved saves]
      constructor
      · rintro ⟨apart, rfl | ⟨other, found⟩⟩
        · exact .inl rfl
        · refine .inr ⟨other, found, ?_⟩
          rintro ⟨_, ⟨⟩, same, -⟩
          exact apart same.symm
      · rintro (rfl | ⟨other, found, kept⟩)
        · exact ⟨Ne.symm shared, .inl rfl⟩
        · exact ⟨fun same => kept ⟨old, rfl, same.symm, deletes⟩, .inr ⟨other, found⟩⟩
    · rw [laws.undeleted deletes, laws.saved saves]
      refine or_congr_right (and_congr_right fun _ => ⟨fun found => ⟨found, ?_⟩, And.left⟩)
      rintro ⟨_, ⟨⟩, -, succeeds⟩
      exact deletes succeeds

variable (enabled : s.enabled = true) (opened : s.store = some store) (nspace workload ipv4 : String)
include enabled opened

theorem DnsService.upsert_outcome :
    let outcome := s.upsertWorkloadA saving deleting nspace workload ipv4
    (outcome.2 = .ok () ↔ trimSpace ipv4 ≠ "" ∧ ∃ norm,
      lib.normalizeRecord (workloadRecord s.zone nspace workload ipv4) = .ok norm ∧ (lib.saveRecord saving store norm).2 = .ok ()) ∧
    ∀ norm, outcome.2 = .ok () → lib.normalizeRecord (workloadRecord s.zone nspace workload ipv4) = .ok norm →
      outcome.1.store = some (lib.replaced saving deleting store (s.remembered nspace workload) norm) := by
  intro outcome
  simp only [outcome, upsertWorkloadA, enabled, opened]
  by_cases blank : trimSpace ipv4 = ""
  · simp [blank, Check.fail]
  cases normal : lib.normalizeRecord (workloadRecord s.zone nspace workload ipv4) with
  | error err => simp [blank]
  | ok norm =>
    simp only [if_neg blank, DnsLibrary.replaced, remembered]
    rcases saved : lib.saveRecord saving store norm with ⟨next, err | _⟩
    · simp [saved]
    · refine ⟨by simp [saved, blank, Check.pass], fun _ _ same => ?_⟩
      cases same
      cases s.workloadRecords.lookup (workloadRecordKey nspace workload) <;> simp only [saved]

theorem DnsService.remove_outcome :
    let outcome := s.removeWorkloadA deleting nspace workload
    (outcome.2 = .ok () ↔ ∀ prev ∈ s.remembered nspace workload, (lib.deleteRecord deleting store prev).2 = .ok ()) ∧
    (outcome.2 = .ok () → outcome.1.store =
      some ((s.remembered nspace workload).elim store fun prev => (lib.deleteRecord deleting store prev).1)) := by
  intro outcome
  simp only [outcome, removeWorkloadA, enabled, opened, remembered]
  cases s.workloadRecords.lookup (workloadRecordKey nspace workload) with
  | none => exact ⟨by simp [Check.pass], fun _ => opened⟩
  | some prev => rcases deleted : lib.deleteRecord deleting store prev with ⟨next, err | _⟩ <;> simp [deleted, Check.pass]

theorem leftRight_upsert_iff :
    LeftRight laws s (.upsert nspace workload ipv4 saving deleting) ↔
      Mirrored laws s (.upsert nspace workload ipv4 saving deleting) := by
  obtain ⟨succeeds, stored⟩ := DnsService.upsert_outcome saving deleting enabled opened nspace workload ipv4
  constructor
  · intro right filled norm normal store' held saves rec published
    obtain rfl : store = store' := Option.some.inj (opened.symm.trans held)
    have ok := succeeds.mpr ⟨filled, norm, normal, saves⟩
    obtain ⟨norm', normal', only, -, exactly⟩ := right ok _ (stored norm ok normal)
    by_contra neither
    obtain ⟨other, unremembered⟩ := not_or.mp neither
    have new := (exactly norm).mp ⟨(laws.has_replaced saving deleting saves).mpr (.inl rfl), laws.normal normal⟩
    have old := (exactly rec).mp
      ⟨(laws.has_replaced saving deleting saves).mpr (.inr ⟨other, published.1, unremembered⟩), published.2⟩
    exact other (congrArg lib.key (old.trans new.symm))
  · intro mirrored ok store' held
    obtain ⟨filled, norm, normal, saves⟩ := succeeds.mp ok
    obtain rfl := Option.some.inj ((stored norm ok normal).symm.trans held)
    refine ⟨norm, normal, norm, rfl, fun rec => ⟨?_, ?_⟩⟩
    · rintro ⟨has, published⟩
      rcases (laws.has_replaced saving deleting saves).mp has with rfl | ⟨other, found, kept⟩
      · rfl
      · rcases mirrored filled norm normal store opened saves rec ⟨found, published⟩ with same | remembered
        · exact absurd same other
        · exact absurd remembered kept
    · rintro rfl
      exact ⟨(laws.has_replaced saving deleting saves).mpr (.inl rfl), laws.normal normal⟩

theorem leftRight_remove_iff :
    LeftRight laws s (.remove nspace workload deleting) ↔ Mirrored laws s (.remove nspace workload deleting) := by
  obtain ⟨succeeds, stored⟩ := DnsService.remove_outcome deleting enabled opened nspace workload
  constructor
  · intro right store' held returns rec published
    obtain rfl : store = store' := Option.some.inj (opened.symm.trans held)
    have ok := succeeds.mpr returns
    have gone := right ok _ (stored ok) rec
    cases found : s.remembered nspace workload with
    | none =>
      rw [found] at gone
      exact absurd published gone
    | some prev =>
      rw [found] at gone
      by_contra unremembered
      have apart : lib.key rec ≠ lib.key prev := fun same => unremembered ⟨prev, rfl, same.symm⟩
      exact gone ⟨(laws.deleted (returns prev found)).mpr ⟨apart, published.1⟩, published.2⟩
  · intro mirrored ok store' held rec published
    obtain rfl := Option.some.inj ((stored ok).symm.trans held)
    have returns := succeeds.mp ok
    cases found : s.remembered nspace workload with
    | none =>
      rw [found] at published
      obtain ⟨prev, remembered, -⟩ := mirrored store opened returns rec published
      cases found.symm.trans remembered
    | some prev =>
      rw [found] at published
      obtain ⟨apart, has⟩ := (laws.deleted (returns prev found)).mp published.1
      obtain ⟨_, remembered, same⟩ := mirrored store opened returns rec ⟨has, published.2⟩
      cases found.symm.trans remembered
      exact apart same.symm

end Calls

theorem DnsService.step_open {s : DnsService lib} (enabled : s.enabled = true) (opened : s.store.isSome) (event : DnsEvent lib) :
    (s.step event).1.enabled = true ∧ (s.step event).1.store.isSome := by
  cases event with
  | upsert nspace workload ipv4 saving deleting =>
    simp only [step]
    unfold upsertWorkloadA
    split
    · exact ⟨enabled, opened⟩
    · exact ⟨enabled, opened⟩
    split
    · exact ⟨enabled, opened⟩
    split
    · exact ⟨enabled, opened⟩
    dsimp only
    split <;> exact ⟨enabled, rfl⟩
  | remove nspace workload deleting =>
    simp only [step]
    unfold removeWorkloadA
    split
    · exact ⟨enabled, opened⟩
    · exact ⟨enabled, opened⟩
    dsimp only
    split
    · exact ⟨enabled, opened⟩
    split <;> exact ⟨enabled, rfl⟩
  | restart seeding =>
    simp only [step]
    unfold restarted
    split
    · exact ⟨enabled, opened⟩
    split <;> exact ⟨enabled, rfl⟩

theorem DnsService.foldl_open : ∀ (events : List (DnsEvent lib)) {s : DnsService lib},
    s.enabled = true → s.store.isSome →
      (events.foldl (fun s event => (s.step event).1) s).enabled = true ∧
        (events.foldl (fun s event => (s.step event).1) s).store.isSome
  | [], _, enabled, opened => ⟨enabled, opened⟩
  | event :: events, s, enabled, opened => by
    obtain ⟨on, there⟩ := step_open enabled opened event
    exact foldl_open events on there

/-- Over every run, each call that returns without an error leaves the store right
exactly if the service's own map mirrors the store before it. -/
theorem dns_left_right_iff (zone : String) (store : lib.Store) (events : List (DnsEvent lib)) :
    (∀ before event after, events = before ++ event :: after → LeftRight laws (.after zone store before) event) ↔
      ∀ before event after, events = before ++ event :: after → Mirrored laws (.after zone store before) event := by
  have each (before : List (DnsEvent lib)) (event : DnsEvent lib) :
      LeftRight laws (.after zone store before) event ↔ Mirrored laws (.after zone store before) event := by
    obtain ⟨enabled, opened⟩ := DnsService.foldl_open before (s := ⟨true, zone, some store, ∅⟩) rfl rfl
    obtain ⟨disk, opened⟩ := Option.isSome_iff_exists.mp opened
    cases event with
    | upsert nspace workload ipv4 saving deleting => exact leftRight_upsert_iff saving deleting enabled opened nspace workload ipv4
    | remove nspace workload deleting => exact leftRight_remove_iff deleting enabled opened nspace workload
    | restart seeding => exact Iff.rfl
  simp only [each]

/-- A list of characters, each behind a point. -/
def dotted (chars : List Char) : List Char := chars.flatMap fun c => ['.', c]

theorem dotted_inj : ∀ {a b x y : List Char}, dotted a ++ '/' :: x = dotted b ++ '/' :: y → a = b ∧ x = y
  | [], [], x, y, same => ⟨rfl, (List.cons.inj same).2⟩
  | [], _ :: _, x, y, same => by cases (List.cons.inj same).1
  | _ :: _, [], x, y, same => by cases (List.cons.inj same).1
  | c :: a, d :: b, x, y, same => by
    simp only [dotted, List.flatMap_cons, List.cons_append, List.nil_append, List.cons.injEq, true_and] at same
    obtain ⟨rfl, rest⟩ := same
    obtain ⟨rfl, rfl⟩ := dotted_inj rest
    exact ⟨rfl, rfl⟩

def plainKey (rec : DnsRecord) : String :=
  String.ofList (dotted rec.name.toList ++ '/' :: (dotted (List.replicate rec.rrType 't') ++ '/' :: rec.data.toList))

/-- A server that takes records as they are, with a store that takes all writes. -/
def plainServer : DnsLibrary where
  normalizeRecord := .ok
  key := plainKey
  Store := DnsRecord → Bool
  Choice := Unit
  saveRecord _ store rec := (fun other => other = rec || plainKey other ≠ plainKey rec && store other, .pass)
  deleteRecord _ store rec := (fun other => plainKey other ≠ plainKey rec && store other, .pass)

def plainServerLaws : RecordLaws plainServer where
  canonicalName _ name := name
  Has store rec := store rec = true
  normal same := by
    cases same
    exact ⟨rfl, rfl⟩
  key_inj {rec other} same := by
    obtain ⟨name, rest⟩ := dotted_inj (String.ofList_injective same)
    obtain ⟨type, data⟩ := dotted_inj rest
    exact ⟨String.toList_injective name, by simpa using congrArg List.length type, String.toList_injective data⟩
  saved _ := by simp [plainServer]
  deleted _ := by simp [plainServer]
  undeleted failed := absurd rfl failed

/-- The address from before a restart stays beside the new one. -/
theorem dns_record_left_behind :
    ¬ ∀ (lib : DnsLibrary) (laws : RecordLaws lib) (zone : String) (store : lib.Store) (events before : List (DnsEvent lib))
      (event : DnsEvent lib) (after : List (DnsEvent lib)), events = before ++ event :: after →
        LeftRight laws (.after zone store before) event := by
  intro right
  have left := right plainServer plainServerLaws "orch.local" (fun _ => false) _ [.upsert "" "web" "10.0.0.1" () (), .restart ()]
    (.upsert "" "web" "10.0.0.2" () ()) [] rfl
  let disk : Option (DnsRecord → Bool) := ((DnsService.after "orch.local" (fun _ => false)
    [.upsert "" "web" "10.0.0.1" () (), .restart ()] : DnsService plainServer).step (.upsert "" "web" "10.0.0.2" () ())).1.store
  obtain ⟨store, opened, old, new⟩ : ∃ store, disk = some store ∧
      store (workloadRecord "orch.local" "" "web" "10.0.0.1") = true ∧ store (workloadRecord "orch.local" "" "web" "10.0.0.2") = true :=
    ⟨disk.get (by decide +kernel), (Option.some_get _).symm, by decide +kernel, by decide +kernel⟩
  obtain ⟨norm, -, only, -, exactly⟩ := left (by decide +kernel) store opened
  have before := (exactly _).mp ⟨old, by decide +kernel, rfl⟩
  have after := (exactly _).mp ⟨new, by decide +kernel, rfl⟩
  exact absurd (congrArg DnsRecord.data (before.trans after.symm)) (by decide +kernel)

end Orch
