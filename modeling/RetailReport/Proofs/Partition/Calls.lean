import RetailReport.Partition.Migration

/-!
# What the calls on a partition come down to

Every call that changes a partition replaces it: a write replaces it by the lines that are given, an
append by the stored ones and those that are new, and a removal by none at all.  A migration makes a
partition follow its lines by one of these calls, and so replaces it as well.  A call that does not get
as far as that leaves the store as it is.

A replacement in turn drops the partition, finds it unchanged, or installs its lines.  So what holds
of these holds of every call, and no proof has to go through the calls again.

## Main definitions

* `PartitionStore.appended`, `Migration.followed`: the lines that a partition is to hold.

## Main results

* `PartitionStore.replace_cases`: replacing a partition.
* `PartitionStore.writePartition_cases`, `PartitionStore.appendOpen_cases`,
  `PartitionStore.removePartition_eq`: the calls.
* `Migration.follow_cases`, `Migration.turn_cases`: making a partition follow its lines.
-/

namespace RetailReport

namespace PartitionStore

variable {id : PartitionId} {lines : List FactRecord} {P : FactRecord → Prop}

/-! ### Replacing a partition -/

theorem isEmpty_canonicalSort (facts : List FactRecord) :
    (canonicalSort facts).isEmpty = facts.isEmpty := by
  rw [Bool.eq_iff_iff, List.isEmpty_iff_length_eq_zero, List.isEmpty_iff_length_eq_zero,
    canonicalSort, List.length_mergeSort]

/-- **A replacement, spelled out**: without lines the partition is dropped, lines that it already
holds are found unchanged, and others are installed. -/
theorem replace_cases (s : PartitionStore) (id : PartitionId) (lines : List FactRecord) :
    lines = [] ∧ s.replace id lines = s.drop id (contentHash (canonicalSort lines)) ∨
      lines ≠ [] ∧
        ((∃ e ref, s.unchanged? id (contentHash (canonicalSort lines)) = some e ∧
            ref.written = false ∧ s.replace id lines =
              (.ok ref, { s with unchangedCount := s.unchangedCount + 1 })) ∨
          s.unchanged? id (contentHash (canonicalSort lines)) = none ∧ s.replace id lines =
            s.install id (canonicalSort lines) (contentHash (canonicalSort lines))) := by
  unfold replace
  simp only [isEmpty_canonicalSort]
  by_cases hnil : lines = []
  · exact .inl ⟨hnil, if_pos (List.isEmpty_iff.2 hnil)⟩
  · rw [if_neg (mt List.isEmpty_iff.1 hnil)]
    refine .inr ⟨hnil, ?_⟩
    cases s.unchanged? id (contentHash (canonicalSort lines)) with
    | some e => exact .inl ⟨e, _, rfl, rfl, rfl⟩
    | none => exact .inr ⟨rfl, rfl⟩

theorem replace_nil (s : PartitionStore) (id : PartitionId) :
    s.replace id [] = s.drop id (contentHash (canonicalSort [])) := by
  obtain ⟨-, heq⟩ | ⟨hsome, -⟩ := s.replace_cases id []
  · exact heq
  · exact absurd rfl hsome

/-! ### The calls -/

theorem checkFacts_eq_ok : checkFacts id lines = .ok () ↔ ∀ f ∈ lines, id.holds f = true := by
  unfold checkFacts
  split
  · next f hfind =>
    refine ⟨nofun, fun h => ?_⟩
    have hf := List.find?_some hfind
    rw [h f (List.mem_of_find?_eq_some hfind)] at hf
    cases hf
  · next hfind =>
    refine ⟨fun _ f hf => ?_, fun _ => rfl⟩
    simpa using List.find?_eq_none.1 hfind f hf

theorem checkFacts_eq_error {error : PartitionError} (h : checkFacts id lines = .error error) :
    ∃ f ∈ lines, id.holds f = false ∧ error = .invalidFacts id f.recordId := by
  unfold checkFacts at h
  split at h
  · next f hfind =>
    have hf := List.find?_some hfind
    exact ⟨f, List.mem_of_find?_eq_some hfind, by simpa using hf, (Except.error.inj h).symm⟩
  · cases h

/-- **A write, spelled out**: it replaces the partition, unless a line belongs to another one. -/
theorem writePartition_cases (s : PartitionStore) (id : PartitionId) (lines : List FactRecord) :
    (∃ error, checkFacts id lines = .error error ∧
        s.writePartition id lines = (.error error, s)) ∨
      checkFacts id lines = .ok () ∧ s.writePartition id lines = s.replace id lines := by
  unfold writePartition
  cases checkFacts id lines with
  | error error => exact .inl ⟨error, rfl, rfl⟩
  | ok => exact .inr ⟨rfl, rfl⟩

/-- The lines of a partition after some were appended. -/
def appended (s : PartitionStore) (id : PartitionId) (lines : List FactRecord) : List FactRecord :=
  let stored := (s.storedFacts id).toOption.getD []
  stored ++ newFacts (KeySet.ofList (stored.map (·.recordId))) lines

theorem appended_of_storedFacts {s : PartitionStore} {stored : List FactRecord}
    (h : s.storedFacts id = .ok stored) (lines : List FactRecord) : s.appended id lines =
      stored ++ newFacts (KeySet.ofList (stored.map (·.recordId))) lines := by
  unfold appended
  rw [h]
  rfl

theorem mem_of_mem_newFacts {taken : KeySet String} {f : FactRecord}
    (h : f ∈ newFacts taken lines) : f ∈ lines := by
  induction lines generalizing taken with
  | nil => exact h
  | cons g lines ih =>
    unfold newFacts at h
    split at h
    · exact List.mem_cons_of_mem _ (ih h)
    · rcases List.mem_cons.1 h with rfl | h
      · exact List.mem_cons_self
      · exact List.mem_cons_of_mem _ (ih h)

/-- What holds of all stored lines and of all that are appended holds of both together. -/
theorem forall_mem_appended {s : PartitionStore}
    (hstored : ∀ stored, s.storedFacts id = .ok stored → ∀ f ∈ stored, P f)
    (hlines : ∀ f ∈ lines, P f) : ∀ f ∈ s.appended id lines, P f := by
  intro f hf
  rcases List.mem_append.1 hf with hf | hf
  · cases hread : s.storedFacts id with
    | error e =>
      rw [hread] at hf
      cases hf
    | ok stored =>
      rw [hread] at hf
      exact hstored stored hread f hf
  · exact hlines f (mem_of_mem_newFacts hf)

/-- **An append, spelled out**: it replaces the partition by the stored lines and the new ones, unless
the day is over, a line belongs to another partition, or what is stored cannot be read. -/
theorem appendOpen_cases (s : PartitionStore) (id : PartitionId) (lines : List FactRecord) :
    (∃ error, (s.isClosed id.date = true ∧ error = .closedPartition id ∨
          checkFacts id lines = .error error ∨ s.storedFacts id = .error error) ∧
        s.appendOpen id lines = (.error error, s)) ∨
      s.isClosed id.date = false ∧ checkFacts id lines = .ok () ∧
        (∃ stored, s.storedFacts id = .ok stored) ∧
        s.appendOpen id lines = s.replace id (s.appended id lines) := by
  unfold appendOpen
  cases hclosed : s.isClosed id.date with
  | true => exact .inl ⟨_, .inl ⟨rfl, rfl⟩, rfl⟩
  | false =>
    rw [if_neg Bool.false_ne_true]
    cases checkFacts id lines with
    | error error => exact .inl ⟨error, .inr (.inl rfl), rfl⟩
    | ok =>
      cases hstored : s.storedFacts id with
      | error error => exact .inl ⟨error, .inr (.inr rfl), rfl⟩
      | ok stored =>
        rw [appended_of_storedFacts hstored]
        exact .inr ⟨rfl, rfl, ⟨stored, rfl⟩, rfl⟩

/-- **A removal, spelled out**: it replaces the partition by no lines. -/
theorem removePartition_eq (s : PartitionStore) (id : PartitionId) :
    s.removePartition id =
      ((s.replace id []).1.map fun _ => s.manifest.contains id, (s.replace id []).2) := by
  unfold removePartition
  rcases s.replace id [] with ⟨_ | _, _⟩ <;> rfl

end PartitionStore

/-! ### Following the fact store -/

namespace Migration

open PartitionStore

variable {s : PartitionStore} {id : PartitionId} {lines : List FactRecord} {P : FactRecord → Prop}

/-- The lines that a partition holds when it follows some lines. -/
def followed (s : PartitionStore) (id : PartitionId) (lines : List FactRecord) : List FactRecord :=
  if lines.isEmpty || s.isClosed id.date then lines else s.appended id lines

/-- A partition that follows no lines is to hold none. -/
theorem followed_nil (s : PartitionStore) (id : PartitionId) : followed s id [] = [] := rfl

/-- A partition of a closed day holds the lines that it follows. -/
theorem followed_of_isClosed (h : s.isClosed id.date = true) : followed s id lines = lines :=
  if_pos (by rw [h, Bool.or_true])

/-- A partition of a day that is not over also holds what it held. -/
theorem followed_of_open (hsome : lines ≠ []) (hopen : s.isClosed id.date = false) :
    followed s id lines = s.appended id lines := by
  refine if_neg ?_
  rw [hopen, Bool.or_false]
  exact mt List.isEmpty_iff.1 hsome

theorem forall_mem_followed (hstored : ∀ stored, s.storedFacts id = .ok stored → ∀ f ∈ stored, P f)
    (hlines : ∀ f ∈ lines, P f) : ∀ f ∈ followed s id lines, P f := by
  unfold followed
  split
  · exact hlines
  · exact forall_mem_appended hstored hlines

/-- What has become of a partition that follows some lines. -/
def outcomeOf (lines : List FactRecord) (existed : Bool) (ref : PartitionRef) : Outcome :=
  if lines.isEmpty then if existed then .removed else .kept else .ofRef ref

theorem outcomeOf_of_ne_nil (h : lines ≠ []) (existed : Bool) :
    outcomeOf lines existed = .ofRef := by
  funext ref
  exact if_neg (mt List.isEmpty_iff.1 h)

/-- **Following, spelled out**: the partition is replaced, unless there are lines and one of them
belongs to another partition, or what is stored cannot be read. -/
theorem follow_cases (s : PartitionStore) (id : PartitionId) (lines : List FactRecord) :
    (∃ error, lines ≠ [] ∧ (checkFacts id lines = .error error ∨ s.storedFacts id = .error error) ∧
        follow s id lines = (.error error, s)) ∨
      checkFacts id lines = .ok () ∧ follow s id lines =
        ((s.replace id (followed s id lines)).1.map (outcomeOf lines (s.manifest.contains id)),
          (s.replace id (followed s id lines)).2) := by
  by_cases hnil : lines = []
  · subst hnil
    refine .inr ⟨rfl, ?_⟩
    rw [follow, if_pos List.isEmpty_nil, removePartition_eq, followed_nil]
    rcases s.replace id [] with ⟨_ | _, _⟩ <;> rfl
  · rw [follow, if_neg (mt List.isEmpty_iff.1 hnil), outcomeOf_of_ne_nil hnil]
    cases hclosed : s.isClosed id.date with
    | true =>
      rw [if_pos rfl, followed_of_isClosed hclosed]
      obtain ⟨error, hcheck, heq⟩ | ⟨hcheck, heq⟩ := s.writePartition_cases id lines
      · exact .inl ⟨error, hnil, .inl hcheck, by rw [heq]; rfl⟩
      · exact .inr ⟨hcheck, by rw [heq]⟩
    | false =>
      rw [if_neg Bool.false_ne_true, followed_of_open hnil hclosed]
      obtain ⟨error, ⟨hover, -⟩ | hwhy, heq⟩ | ⟨-, hcheck, -, heq⟩ := s.appendOpen_cases id lines
      · rw [hclosed] at hover
        cases hover
      · exact .inl ⟨error, hnil, hwhy, by rw [heq]; rfl⟩
      · exact .inr ⟨hcheck, by rw [heq]⟩

/-- **The turn of a partition, spelled out**: it is reported as failed if its lines cannot be read or
it cannot follow them; otherwise its mark is cleared under the number that it had before. -/
theorem turn_cases (facts : FactStore) (s : PartitionStore) (r : MigrationReport)
    (id : PartitionId) :
    (∃ t, migrateOne facts (s, r) id = (t, { r with failed := r.failed ++ [id] }) ∧
        ((∃ error, scan facts id = .error error) ∧ t = s ∨
          ∃ lines error, scan facts id = .ok lines ∧ follow s id lines = (.error error, t))) ∨
      ∃ lines o t, scan facts id = .ok lines ∧ follow s id lines = (.ok o, t) ∧
        migrateOne facts (s, r) id =
          ((t.clearPending id (s.pendingMark? id)).2, report r o (t.entry? id).isSome) := by
  unfold migrateOne
  cases hscan : scan facts id with
  | error error => exact .inl ⟨s, rfl, .inl ⟨⟨error, rfl⟩, rfl⟩⟩
  | ok lines =>
    dsimp only
    rcases hfollow : follow s id lines with ⟨error | o, t⟩
    · exact .inl ⟨t, rfl, .inr ⟨lines, error, rfl, hfollow⟩⟩
    · exact .inr ⟨lines, o, t, rfl, hfollow, rfl⟩

end Migration

end RetailReport
