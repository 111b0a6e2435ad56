import MultisigWallet.DBMigration
import MultisigWallet.Lib.Transition

/-!
# MultisigWallet.DBMigrationSound

Which migrations a launch runs. The pending ones are looked for *after* the latest one of the
database in the list of the registered ones. If that list has the latest one, these are the
migrations above it; if it does not, they are all of them, and some may have been run before.
-/

namespace MultisigWallet

variable {δ : Type}

/-! ### Sorted lists -/

/-- Different keys, sorted, are strictly sorted. -/
theorem pairwise_lt_insertionSort {registered : List (Migration δ)}
    (h : (registered.map (·.id)).Nodup) :
    (registered.insertionSort fun a b => a.id ≤ b.id).Pairwise fun a b => a.id < b.id := by
  have hperm := List.perm_insertionSort (fun a b : Migration δ => a.id ≤ b.id) registered
  have hne : (registered.insertionSort fun a b => a.id ≤ b.id).Pairwise fun a b => a.id ≠ b.id :=
    List.pairwise_map.mp ((hperm.map Migration.id).nodup_iff.mpr h)
  have hle : (registered.insertionSort fun a b => a.id ≤ b.id).Pairwise fun a b => a.id ≤ b.id :=
    have : Std.Total fun a b : Migration δ => a.id ≤ b.id := ⟨fun a b => le_total a.id b.id⟩
    have : IsTrans (Migration δ) fun a b => a.id ≤ b.id := ⟨fun _ _ _ => le_trans⟩
    List.pairwise_insertionSort _ _
  exact (hle.and hne).imp fun h => lt_of_le_of_ne h.1 h.2

namespace DBMigrationRepository

theorem findLatest_some {db : MigratedDatabase δ} {latest : MigrationID}
    (h : findLatest db = some latest) :
    latest ∈ db.recorded ∧ ∀ id ∈ db.recorded, id ≤ latest := by
  unfold findLatest at h
  have hsorted : (db.recorded.insertionSort fun a b => b ≤ a).Pairwise fun a b => b ≤ a :=
    have : Std.Total fun a b : MigrationID => b ≤ a := ⟨fun a b => le_total b a⟩
    have : IsTrans MigrationID fun a b => b ≤ a := ⟨fun _ _ _ hab hbc => le_trans hbc hab⟩
    List.pairwise_insertionSort _ _
  have hmem : ∀ {id}, id ∈ db.recorded.insertionSort (fun a b => b ≤ a) ↔ id ∈ db.recorded :=
    List.mem_insertionSort _
  cases hlist : db.recorded.insertionSort fun a b => b ≤ a with
  | nil =>
      rw [hlist] at h
      cases h
  | cons a l =>
      rw [hlist] at h hsorted
      obtain rfl := Option.some.inj h
      rw [hlist] at hmem
      refine ⟨hmem.mp List.mem_cons_self, fun id hid => ?_⟩
      rcases List.mem_cons.mp (hmem.mpr hid) with rfl | hid
      · exact le_refl _
      · exact (List.pairwise_cons.mp hsorted).1 id hid

theorem findLatest_none {db : MigratedDatabase δ} (h : findLatest db = none) :
    db.recorded = [] := by
  unfold findLatest at h
  have hlen := List.length_insertionSort (fun a b : MigrationID => b ≤ a) db.recorded
  rw [List.head?_eq_none_iff.mp h] at hlen
  exact List.length_eq_zero_iff.mp hlen.symm

/-- The latest migration of the database is registered, or everything registered is later. -/
def Anchored (db : MigratedDatabase δ) (registered : List (Migration δ)) : Prop :=
  ∀ latest ∈ findLatest db,
    (∃ m ∈ registered, m.id = latest) ∨ ∀ m ∈ registered, latest < m.id

section

variable {db : MigratedDatabase δ} {registered : List (Migration δ)}

instance : Decidable (Anchored db registered) :=
  inferInstanceAs (Decidable (∀ latest ∈ findLatest db,
    (∃ m ∈ registered, m.id = latest) ∨ ∀ m ∈ registered, latest < m.id))

theorem pendingMigrations_sublist (db : MigratedDatabase δ) (registered : List (Migration δ)) :
    (pendingMigrations db registered).Sublist
      (registered.insertionSort fun a b => a.id ≤ b.id) := by
  unfold pendingMigrations
  simp only
  split
  · split
    · exact List.drop_sublist _ _
    · exact List.nil_sublist _
  · exact List.Sublist.refl _

theorem pendingMigrations_sorted (h : (registered.map (·.id)).Nodup) :
    ((pendingMigrations db registered).map (·.id)).Pairwise (· < ·) :=
  List.pairwise_map.mpr
    ((pairwise_lt_insertionSort h).sublist (pendingMigrations_sublist db registered))

/-- What follows the latest one in the sorted list is later. -/
theorem lt_of_mem_drop {l : List (Migration δ)} (hl : l.Pairwise fun a b => a.id < b.id)
    {i : Nat} {latest : MigrationID} (hi : l.findIdx? (·.id = latest) = some i) :
    ∀ m ∈ l.drop (i + 1), latest < m.id := by
  obtain ⟨hlt, hid, -⟩ := List.findIdx?_eq_some_iff_getElem.mp hi
  have hdrop : (l.drop i).Pairwise fun a b => a.id < b.id := hl.sublist (List.drop_sublist i l)
  rw [List.drop_eq_getElem_cons hlt, List.pairwise_cons] at hdrop
  intro m hm
  have hlatest : (l[i]).id = latest := by simpa using hid
  rw [← hlatest]
  exact hdrop.1 m hm

/-- The pending migrations are later than the latest one, if that can be found. -/
theorem lt_of_mem_pendingMigrations (hdistinct : (registered.map (·.id)).Nodup)
    (h : Anchored db registered) :
    ∀ latest ∈ findLatest db, ∀ m ∈ pendingMigrations db registered, latest < m.id := by
  intro latest hlatest m hm
  have hsorted := pairwise_lt_insertionSort hdistinct
  have hmem := (List.mem_insertionSort fun a b : Migration δ => a.id ≤ b.id).mp
    ((pendingMigrations_sublist db registered).subset hm)
  unfold pendingMigrations at hm
  simp only [show findLatest db = some latest from hlatest, Option.bind_some] at hm
  split at hm
  · rename_i i hi
    split at hm
    · exact lt_of_mem_drop hsorted hi m hm
    · cases hm
  · rename_i hi
    -- the latest one is not there
    rcases h latest hlatest with ⟨m', hm', rfl⟩ | hall
    · have hnot := List.findIdx?_eq_none_iff.mp hi m'
        ((List.mem_insertionSort fun a b : Migration δ => a.id ≤ b.id).mpr hm')
      simp at hnot
    · exact hall m hmem

/-- If it cannot be found, the first migration that is run is not later. -/
theorem exists_head_le_of_not_anchored (hdistinct : (registered.map (·.id)).Nodup)
    (h : ¬ Anchored db registered) :
    ∃ latest ∈ findLatest db, ∃ m ms, pendingMigrations db registered = m :: ms ∧
      m.id ≤ latest := by
  unfold Anchored at h
  push Not at h
  obtain ⟨latest, hlatest, hnot, m, hm, hle⟩ := h
  refine ⟨latest, hlatest, ?_⟩
  have hmem : ∀ {m}, m ∈ registered.insertionSort (fun a b : Migration δ => a.id ≤ b.id) ↔
      m ∈ registered := List.mem_insertionSort _
  have hidx : (registered.insertionSort fun a b => a.id ≤ b.id).findIdx? (·.id = latest) = none := by
    rw [List.findIdx?_eq_none_iff]
    intro m hm
    simpa using hnot m (hmem.mp hm)
  have hpending : pendingMigrations db registered =
      registered.insertionSort fun a b => a.id ≤ b.id := by
    unfold pendingMigrations
    simp only [show findLatest db = some latest from hlatest, Option.bind_some, hidx]
  rw [hpending]
  have hsorted := pairwise_lt_insertionSort hdistinct
  cases hlist : registered.insertionSort fun a b => a.id ≤ b.id with
  | nil =>
      rw [← hmem, hlist] at hm
      cases hm
  | cons a ms =>
      refine ⟨a, ms, rfl, ?_⟩
      rw [← hmem, hlist] at hm
      rw [hlist] at hsorted
      rcases List.mem_cons.mp hm with rfl | hm
      · exact hle
      · exact ((List.pairwise_cons.mp hsorted).1 m hm).le.trans hle

theorem mem_recorded_save {id id' : MigrationID} :
    id' ∈ (save db id).recorded ↔ id' ∈ db.recorded ∨ id' = id := by
  by_cases h : id' = id <;> simp [save, h]

end

end DBMigrationRepository

namespace DBMigrationService

open DBMigrationRepository

variable {db db' : MigratedDatabase δ} {registered : List (Migration δ)}

theorem mem_recorded_setUpAll {migrations : List (Migration δ)}
    (h : setUpAll migrations db = some db') {id : MigrationID} :
    id ∈ db'.recorded ↔ id ∈ db.recorded ∨ ∃ m ∈ migrations, m.id = id := by
  induction migrations generalizing db with
  | nil =>
      obtain rfl : db = db' := by simpa [setUpAll] using h
      simp
  | cons m migrations ih =>
      obtain ⟨contents, -, hrest⟩ := Option.bind_eq_some_iff.mp h
      rw [ih hrest, mem_recorded_save, List.exists_mem_cons_iff, or_assoc, eq_comm (a := id)]

theorem called_sublist (migrations : List (Migration δ)) (contents : δ) :
    ((called migrations contents).map (·.id)).Sublist (migrations.map (·.id)) := by
  induction migrations generalizing contents with
  | nil => exact List.Sublist.refl _
  | cons m migrations ih =>
      rw [called]
      split
      · simp
      · simpa using ih _

/-- A `setUp` that throws ends the loop. -/
theorem setUpAll_eq_none {migrations : List (Migration δ)}
    (h : ∃ call ∈ called migrations db.contents, call.throws = true) :
    setUpAll migrations db = none := by
  induction migrations generalizing db with
  | nil => simp [called] at h
  | cons m migrations ih =>
      rw [called] at h
      rw [setUpAll]
      split at h
      · rename_i hm
        rw [hm]
        rfl
      · rename_i contents hm
        rw [hm]
        exact @ih (save { db with contents } m.id) (by simpa [save] using h)

theorem migrate_eq_none {commits : Bool}
    (h : ∃ call ∈ called (pendingMigrations db registered) db.contents, call.throws = true) :
    migrate db registered commits = none := by
  have hsetUp := setUpAll_eq_none h
  unfold migrate executeInTransaction
  simp only [hsetUp, ite_self]
  rw [if_neg]
  intro hempty
  rw [List.isEmpty_iff.mp hempty] at h
  simp [called] at h

/-- A launch calls no `setUp` that is behind the database exactly if the latest migration of the
database can be found. -/
theorem called_later_iff (hdistinct : (registered.map (·.id)).Nodup) (contents : δ) :
    Anchored db registered ↔ ∀ latest ∈ findLatest db,
      ∀ call ∈ called (pendingMigrations db registered) contents, latest < call.id := by
  constructor
  · intro h latest hlatest call hcall
    obtain ⟨m, hm, hid⟩ := List.mem_map.mp
      ((called_sublist _ contents).subset (List.mem_map_of_mem hcall))
    rw [← hid]
    exact lt_of_mem_pendingMigrations hdistinct h latest hlatest m hm
  · intro h
    by_contra hnot
    obtain ⟨latest, hlatest, m, ms, hpending, hle⟩ :=
      exists_head_le_of_not_anchored hdistinct hnot
    rw [hpending, called] at h
    split at h
    · exact absurd (h latest hlatest _ List.mem_cons_self) (not_lt.mpr hle)
    · exact absurd (h latest hlatest _ List.mem_cons_self) (not_lt.mpr hle)

end DBMigrationService

namespace Installation

open DBMigrationRepository DBMigrationService

/-- The database knows of the committed migrations, which were run in their order. -/
structure Consistent (s : Installation δ) : Prop where
  increasing : s.committed.Pairwise (· < ·)
  recorded : ∀ id ∈ s.committed, id ∈ s.database.recorded

/-- The latest migration of the database is one of the app's, or older than all of them. -/
def Orderly (s : Installation δ) (l : Launch δ) : Prop :=
  Anchored (skip s.database l) l.registered

instance (s : Installation δ) (l : Launch δ) : Decidable (Orderly s l) :=
  inferInstanceAs (Decidable (Anchored (skip s.database l) l.registered))

theorem mem_recorded_skip {db : MigratedDatabase δ} {l : Launch δ} {id : MigrationID}
    (h : id ∈ db.recorded) : id ∈ (skip db l).recorded := by
  unfold skip
  split
  · exact h
  · rename_i id' commits _
    cases commits with
    | false => exact h
    | true => exact mem_recorded_save.mpr (.inl h)

/-- What a launch does, once the database is as `migrate()` finds it. -/
theorem launch_cases {s t : Installation δ} {l : Launch δ} (h : launch s l = .ok t) :
    (t = { s with database := skip s.database l }) ∨
      ∃ database, migrate (skip s.database l) l.registered l.commits = some database ∧
        t = ⟨database,
          s.committed ++ (pendingMigrations (skip s.database l) l.registered).map (·.id)⟩ := by
  unfold launch at h
  simp only at h
  split at h
  · exact .inl (Except.ok.inj h).symm
  · rename_i database hmigrate
    exact .inr ⟨database, hmigrate, (Except.ok.inj h).symm⟩

theorem migrate_cases {db db' : MigratedDatabase δ} {registered : List (Migration δ)}
    {commits : Bool} (h : migrate db registered commits = some db') :
    (pendingMigrations db registered = [] ∧ db' = db) ∨
      setUpAll (pendingMigrations db registered) db = some db' := by
  unfold migrate at h
  simp only at h
  split at h
  · rename_i hempty
    exact .inl ⟨List.isEmpty_iff.mp hempty, (Option.some.inj h).symm⟩
  · cases commits with
    | false => simp [executeInTransaction] at h
    | true => exact .inr (by simpa [executeInTransaction] using h)

/-- Whatever is recorded is behind what an orderly launch runs. -/
theorem lt_of_orderly {s : Installation δ} {l : Launch δ} (h : Orderly s l) {id : MigrationID}
    (hid : id ∈ (skip s.database l).recorded) {m : Migration δ}
    (hm : m ∈ pendingMigrations (skip s.database l) l.registered) : id < m.id := by
  cases hlatest : findLatest (skip s.database l) with
  | none =>
      rw [findLatest_none hlatest] at hid
      cases hid
  | some latest =>
      exact ((findLatest_some hlatest).2 id hid).trans_lt
        (lt_of_mem_pendingMigrations l.distinct h latest hlatest m hm)

theorem Consistent.launch {s t : Installation δ} {l : Launch δ} (hs : s.Consistent)
    (hl : Orderly s l) (h : Installation.launch s l = .ok t) : t.Consistent := by
  have hrecorded : ∀ id ∈ s.committed, id ∈ (skip s.database l).recorded :=
    fun id hid => mem_recorded_skip (hs.recorded id hid)
  obtain rfl | ⟨database, hmigrate, rfl⟩ := launch_cases h
  · exact ⟨hs.increasing, hrecorded⟩
  constructor
  · show (s.committed ++ (pendingMigrations _ _).map _).Pairwise _
    rw [List.pairwise_append]
    refine ⟨hs.increasing, pendingMigrations_sorted l.distinct, ?_⟩
    intro id hid id' hid'
    obtain ⟨m, hm, rfl⟩ := List.mem_map.mp hid'
    exact lt_of_orderly hl (hrecorded id hid) hm
  · intro id hid
    obtain ⟨hempty, rfl⟩ | hsetUp := migrate_cases hmigrate
    · rw [hempty] at hid
      exact hrecorded id (by simpa using hid)
    · rw [mem_recorded_setUpAll hsetUp]
      rcases List.mem_append.mp hid with hid | hid
      · exact .inl (hrecorded id hid)
      · obtain ⟨m, hm, rfl⟩ := List.mem_map.mp hid
        exact .inr ⟨m, hm, rfl⟩

/-- An app that is installed. -/
def installed (contents : δ) : Installation δ := ⟨⟨contents, []⟩, []⟩

theorem installed_consistent (contents : δ) : (installed contents).Consistent :=
  ⟨.nil, fun _ h => nomatch h⟩

namespace FirstVersions

/-- A migration that does nothing. -/
def migration (id : MigrationID) : Migration Unit := ⟨id, some⟩

/-- A version with two migrations. -/
def first : Launch Unit := ⟨none, [migration ['1'], migration ['2']], true, by decide⟩

/-- One that has lost the second of them. -/
def second : Launch Unit := ⟨none, [migration ['1']], true, by decide⟩

/-- One that adds a third, which throws. -/
def third : Launch Unit :=
  ⟨none, [migration ['1'], migration ['2'], ⟨['3'], fun _ => none⟩], true, by decide⟩

/-- A version that skips to a migration it does not have. -/
def skipping : Launch Unit := ⟨some (['2'], true), [migration ['1']], true, by decide⟩

end FirstVersions

end Installation

end MultisigWallet
