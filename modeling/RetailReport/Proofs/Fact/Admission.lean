import RetailReport.Proofs.Fact.History
import RetailReport.Proofs.Outcomes

/-!
# Which batches the fact store takes

A batch is taken as a whole or not at all.  While it is checked, the ids and the headers of its lines
are collected beside those of the store, and a line is looked up in both.  Said of the lines alone, a
batch is taken if all lines of it are named, no two lines share an id, and all lines of an order agree,
whichever of them are stored and whichever are new; otherwise it is refused for the first line that
does not fit the lines before it, and nothing of it stays.

## Main definitions

* `Fits`: when a line may follow the lines that are known.
* `LineRefusal`: why it may not.
* `FactStore.Admits`: when the store takes a batch.
* `FactStore.Appended`: what becomes of the store.

## Main results

* `FactStore.Batch.Covers.acceptLine_cases`: **one line** is taken if it fits the lines that are known.
* `FactStore.exists_acceptLines_iff`, `FactStore.acceptLines_eq_error`: **a whole batch**.
* `FactStore.append_run`: appending to a store with any history.
-/

namespace RetailReport

theorem FactRecord.header_eq_iff {f g : FactRecord} : f.header = g.header ↔
    f.storeId = g.storeId ∧ f.channel = g.channel ∧ f.timestamp = g.timestamp := by
  rw [header, header, OrderHeader.mk.injEq]

/-- **When a line may follow the lines that are known.** -/
structure Fits (known : List FactRecord) (f : FactRecord) : Prop where
  /-- It names itself and its order. -/
  named : f.recordId ≠ "" ∧ f.orderId ≠ ""
  /-- It names its store. -/
  placed : f.storeId ≠ ""
  /-- Its id is its own. -/
  fresh : ∀ g ∈ known, g.recordId ≠ f.recordId
  /-- It agrees with all lines of its order about store, channel and moment. -/
  agrees : ∀ g ∈ known, g.orderId = f.orderId → g.header = f.header

/-- **Why a line may not follow the lines that are known**: the first reason that there is. -/
inductive LineRefusal (known : List FactRecord) (f : FactRecord) : FactStoreError → Prop
  | unnamed (h : f.recordId = "" ∨ f.orderId = "") :
      LineRefusal known f (.invalidRecord f.recordId "record_id and order_id are required")
  | unplaced (named : f.recordId ≠ "" ∧ f.orderId ≠ "") (h : f.storeId = "") :
      LineRefusal known f (.invalidRecord f.recordId "store_id is required")
  | repeated (named : f.recordId ≠ "" ∧ f.orderId ≠ "") (placed : f.storeId ≠ "") {g : FactRecord}
      (hg : g ∈ known) (h : g.recordId = f.recordId) :
      LineRefusal known f (.duplicateRecord f.recordId)
  | disagrees (named : f.recordId ≠ "" ∧ f.orderId ≠ "") (placed : f.storeId ≠ "")
      (fresh : ∀ g ∈ known, g.recordId ≠ f.recordId) {g : FactRecord} (hg : g ∈ known)
      (horder : g.orderId = f.orderId) (h : g.header ≠ f.header) :
      LineRefusal known f (.invalidRecord f.recordId
        ("order " ++ f.orderId ++ " lines disagree on store, channel or timestamp"))

/-- The line that an error names. -/
def FactStoreError.culprit? : FactStoreError → Option String
  | .unavailable _ => none
  | .duplicateRecord recordId | .invalidRecord recordId _ => some recordId

namespace LineRefusal

variable {known : List FactRecord} {f : FactRecord} {e : FactStoreError}

theorem culprit? (h : LineRefusal known f e) : e.culprit? = some f.recordId := by cases h <;> rfl

theorem not_fits (h : LineRefusal known f e) : ¬Fits known f := by
  intro hf
  cases h with
  | unnamed h =>
    rcases h with h | h
    · exact hf.named.1 h
    · exact hf.named.2 h
  | unplaced _ h => exact hf.placed h
  | repeated _ _ hg h => exact hf.fresh _ hg h
  | disagrees _ _ _ hg horder h => exact h (hf.agrees _ hg horder)

end LineRefusal

namespace FactStore

open SortedMap

variable {s s' : FactStore} {facts : List FactRecord} {e : FactStoreError}

/-! ### One line -/

namespace Batch.Covers

variable {b : Batch} {taken : List FactRecord}

/-- The ids of the lines that are known, stored or taken. -/
theorem contains_iff (hb : Covers s b taken) (hs : s.Consistent) {id : String} :
    (s.recordIds.contains id || b.ids.contains id) = true ↔
      ∃ g ∈ s.lines ++ taken, g.recordId = id := by
  rw [Bool.or_eq_true, KeySet.contains_iff, KeySet.contains_iff, hs.recordIds, hb.ids]
  simp only [List.mem_append, or_and_right, exists_or]

theorem header_of_mem (hb : Covers s b taken) (hs : s.Consistent) {g : FactRecord}
    (hg : g ∈ s.lines ++ taken) :
    (s.orders.get? g.orderId).or (b.orders.get? g.orderId) = some g.header := by
  rcases List.mem_append.1 hg with hg | hg
  · rw [hs.headers g hg, Option.some_or]
  · exact hb.headers g hg

/-- The header of an order that is known is that of all lines of it, and there are some. -/
theorem header_eq_some_iff (hb : Covers s b taken) (hs : s.Consistent) {o : String}
    {h : OrderHeader} : (s.orders.get? o).or (b.orders.get? o) = some h ↔
      ∃ g ∈ s.lines ++ taken, g.orderId = o ∧ g.header = h := by
  constructor
  · intro ho
    obtain ⟨g, hg, rfl⟩ : ∃ g ∈ s.lines ++ taken, g.orderId = o := by
      rcases Option.or_eq_some_iff.1 ho with ho | ⟨-, ho⟩
      · obtain ⟨g, hg, e⟩ := hs.orders o h ho
        exact ⟨g, List.mem_append_left _ hg, e⟩
      · obtain ⟨-, g, hg, e⟩ := hb.orders o h ho
        exact ⟨g, List.mem_append_right _ hg, e⟩
    exact ⟨g, hg, rfl, Option.some.inj ((hb.header_of_mem hs hg).symm.trans ho)⟩
  · rintro ⟨g, hg, rfl, rfl⟩
    exact hb.header_of_mem hs hg

/-- **One line is taken if it fits the lines that are known**, and otherwise refused for the first
reason that there is. -/
theorem acceptLine_cases (hb : Covers s b taken) (hs : s.Consistent) (f : FactRecord) :
    (∃ b', s.acceptLine b f = .ok b') ∧ Fits (s.lines ++ taken) f ∨
      ∃ e, s.acceptLine b f = .error e ∧ LineRefusal (s.lines ++ taken) f e := by
  unfold FactStore.acceptLine
  split
  · next unnamed =>
    rw [Bool.or_eq_true, String.isEmpty_iff, String.isEmpty_iff] at unnamed
    exact .inr ⟨_, rfl, .unnamed unnamed⟩
  next named =>
  rw [Bool.or_eq_true, String.isEmpty_iff, String.isEmpty_iff, not_or] at named
  split
  · next unplaced => exact .inr ⟨_, rfl, .unplaced named (String.isEmpty_iff.1 unplaced)⟩
  next placed =>
  rw [String.isEmpty_iff] at placed
  split
  · next used =>
    obtain ⟨g, hg, h⟩ := (hb.contains_iff hs).1 used
    exact .inr ⟨_, rfl, .repeated named placed hg h⟩
  next unused =>
  have fresh : ∀ g ∈ s.lines ++ taken, g.recordId ≠ f.recordId :=
    fun g hg h => unused ((hb.contains_iff hs).2 ⟨g, hg, h⟩)
  dsimp only
  split
  · next known hknown =>
    split
    · next heq =>
      refine .inl ⟨⟨_, rfl⟩, named, placed, fresh, fun g hg horder => ?_⟩
      rw [← heq]
      have hg' := hb.header_of_mem hs hg
      rw [horder, hknown] at hg'
      exact (Option.some.inj hg').symm
    · next hne =>
      obtain ⟨g, hg, horder, rfl⟩ := (hb.header_eq_some_iff hs).1 hknown
      exact .inr ⟨_, rfl, .disagrees named placed fresh hg horder hne⟩
  · next hnone =>
    -- No line of the order is known, so none disagrees.
    refine .inl ⟨⟨_, rfl⟩, named, placed, fresh, fun g hg horder => ?_⟩
    have hg' := hb.header_of_mem hs hg
    rw [horder, hnone] at hg'
    cases hg'

end Batch.Covers

/-! ### A whole batch -/

/-- **When the store takes a batch.** -/
structure Admits (s : FactStore) (facts : List FactRecord) : Prop where
  /-- Each line names itself, its order and its store. -/
  named : ∀ f ∈ facts, f.recordId ≠ "" ∧ f.orderId ≠ "" ∧ f.storeId ≠ ""
  /-- No two lines of it share an id. -/
  nodup : (facts.map (·.recordId)).Nodup
  /-- No line of it has the id of a stored line. -/
  fresh : ∀ f ∈ facts, ∀ g ∈ s.lines, g.recordId ≠ f.recordId
  /-- All lines of an order agree about store, channel and moment, stored or new. -/
  agree : ∀ f ∈ s.lines ++ facts, ∀ g ∈ s.lines ++ facts, f.orderId = g.orderId →
    f.storeId = g.storeId ∧ f.channel = g.channel ∧ f.timestamp = g.timestamp

theorem admits_nil (hs : s.Consistent) : s.Admits [] where
  named := by simp
  nodup := .nil
  fresh := by simp
  agree := by
    rw [List.append_nil]
    exact fun f hf g hg h => FactRecord.header_eq_iff.1 (hs.header_eq hf hg h)

/-- What a batch takes on with a further line. -/
theorem admits_concat_iff {f : FactRecord} :
    s.Admits (facts ++ [f]) ↔ s.Admits facts ∧ Fits (s.lines ++ facts) f := by
  constructor
  · intro h
    have hf : f ∈ facts ++ [f] := List.mem_append_right _ (List.mem_singleton_self f)
    have hsub {g : FactRecord} (hg : g ∈ s.lines ++ facts) : g ∈ s.lines ++ (facts ++ [f]) := by
      rw [← List.append_assoc]
      exact List.mem_append_left _ hg
    have hnodup := h.nodup
    rw [List.map_append, List.nodup_append] at hnodup
    obtain ⟨hnodup, -, hdisjoint⟩ := hnodup
    refine ⟨⟨fun g hg => h.named g (List.mem_append_left _ hg), hnodup,
      fun g hg => h.fresh g (List.mem_append_left _ hg),
      fun g hg g' hg' => h.agree g (hsub hg) g' (hsub hg')⟩, ?_⟩
    obtain ⟨hid, horder, hstore⟩ := h.named f hf
    refine ⟨⟨hid, horder⟩, hstore, fun g hg => ?_, fun g hg ho => ?_⟩
    · rcases List.mem_append.1 hg with hg | hg
      · exact h.fresh f hf g hg
      · exact hdisjoint _ (List.mem_map_of_mem hg) _ (List.mem_singleton_self _)
    · exact FactRecord.header_eq_iff.2 (h.agree g (hsub hg) f (List.mem_append_right _ hf) ho)
  · rintro ⟨h, hf⟩
    refine ⟨?_, ?_, ?_, ?_⟩
    · intro g hg
      rcases List.mem_append.1 hg with hg | hg
      · exact h.named g hg
      · rw [List.mem_singleton.1 hg]
        exact ⟨hf.named.1, hf.named.2, hf.placed⟩
    · rw [List.map_append, List.nodup_append]
      refine ⟨h.nodup, List.nodup_singleton _, ?_⟩
      rintro _ hid _ hid' rfl
      obtain ⟨g, hg, hgf⟩ := List.mem_map.1 hid
      exact hf.fresh g (List.mem_append_right _ hg) (hgf.trans (List.mem_singleton.1 hid'))
    · intro g hg
      rcases List.mem_append.1 hg with hg | hg
      · exact h.fresh g hg
      · rw [List.mem_singleton.1 hg]
        exact fun g' hg' => hf.fresh g' (List.mem_append_left _ hg')
    · intro g hg g' hg' ho
      rw [← List.append_assoc] at hg hg'
      -- Two lines of one order: both taken before, one of them new, or both the new one.
      rcases List.mem_append.1 hg with hg | hg <;> rcases List.mem_append.1 hg' with hg' | hg'
      · exact h.agree g hg g' hg' ho
      · rw [List.mem_singleton.1 hg'] at ho ⊢
        exact FactRecord.header_eq_iff.1 (hf.agrees g hg ho)
      · rw [List.mem_singleton.1 hg] at ho ⊢
        exact FactRecord.header_eq_iff.1 (hf.agrees g' hg' ho.symm).symm
      · rw [List.mem_singleton.1 hg, List.mem_singleton.1 hg']
        exact ⟨rfl, rfl, rfl⟩

/-- What is taken as a whole is taken up to every line. -/
theorem Admits.of_append {before after : List FactRecord} (h : s.Admits (before ++ after)) :
    s.Admits before := by
  induction after using List.reverseRecOn with
  | nil => rwa [List.append_nil] at h
  | append_singleton after f ih =>
    rw [← List.append_assoc, admits_concat_iff] at h
    exact ih h.1

theorem admits_of_acceptLines {b : Batch} (hs : s.Consistent) (h : s.acceptLines facts = .ok b) :
    s.Admits facts := by
  refine (List.foldlM_ok_induction (P := fun done b => Batch.Covers s b done ∧ s.Admits done) h
    ⟨.empty s, admits_nil hs⟩ ?_).2
  rintro done f b b' - ⟨hb, hdone⟩ hf
  refine ⟨hb.acceptLine hf, admits_concat_iff.2 ⟨hdone, ?_⟩⟩
  rcases hb.acceptLine_cases hs f with ⟨-, hfits⟩ | ⟨e, he, -⟩
  · exact hfits
  · rw [hf] at he
    cases he

/-- **A batch is refused for its first line that does not fit**, for the reason why it does not. -/
theorem acceptLines_eq_error (hs : s.Consistent) (h : s.acceptLines facts = .error e) :
    ∃ before f after, facts = before ++ f :: after ∧ s.Admits before ∧
      LineRefusal (s.lines ++ before) f e := by
  obtain ⟨before, f, after, b, hfacts, hbefore, hf⟩ := List.foldlM_eq_error.1 h
  refine ⟨before, f, after, hfacts, admits_of_acceptLines hs hbefore, ?_⟩
  rcases (covers_of_acceptLines hbefore).acceptLine_cases hs f with ⟨⟨b', hb'⟩, -⟩ | ⟨e', he, hr⟩
  · rw [hf] at hb'
    cases hb'
  · rw [hf] at he
    cases he
    exact hr

theorem not_admits_of_refusal {f : FactRecord} (h : LineRefusal (s.lines ++ facts) f e) :
    ¬s.Admits (facts ++ [f]) := fun hf => h.not_fits (admits_concat_iff.1 hf).2

/-- **Which batches are taken.** -/
theorem exists_acceptLines_iff (hs : s.Consistent) :
    (∃ b, s.acceptLines facts = .ok b) ↔ s.Admits facts := by
  constructor
  · rintro ⟨b, hb⟩
    exact admits_of_acceptLines hs hb
  · intro h
    cases hb : s.acceptLines facts with
    | ok b => exact ⟨b, rfl⟩
    | error e =>
      obtain ⟨before, f, after, rfl, -, hf⟩ := acceptLines_eq_error hs hb
      rw [List.append_cons] at h
      exact absurd h.of_append (not_admits_of_refusal hf)

/-! ### Appending -/

/-- **What becomes of a store that takes a batch.** -/
structure Appended (s : FactStore) (facts : List FactRecord) (s' : FactStore)
    (stores : KeySet String) : Prop where
  /-- The lines of each store are followed by the new ones, in their order. -/
  linesOf : ∀ id, s'.linesOf id = s.linesOf id ++ facts.filter fun f => f.storeId = id
  recordCount : s'.recordCount = s.recordCount + facts.length
  version : s'.version = s.version + 1
  /-- The stores that are told are those of the new lines. -/
  stores : ∀ id, id ∈ stores.members ↔ ∃ f ∈ facts, f.storeId = id
  /-- What is kept beside the lines follows them. -/
  consistent : s'.Consistent

theorem appended_of_append {stores : KeySet String} (hs : s.Consistent)
    (h : s.append facts = .ok (s', stores)) : Appended s facts s' stores := by
  have hconsistent := hs.append h
  have hlines := linesOf_append h
  obtain ⟨-, b, -, rfl, rfl⟩ := append_eq_ok h
  refine ⟨hlines, rfl, rfl, fun id => ?_, hconsistent⟩
  rw [KeySet.mem_ofList, List.mem_map]

theorem check_of_available (h : s.available = true) : s.check = .ok () := if_pos h

theorem check_of_not_available (h : s.available = false) :
    s.check = .error (.unavailable "memory fact store marked unavailable") :=
  if_neg (Bool.eq_false_iff.1 h)

theorem exists_append_iff (hs : s.Consistent) :
    (∃ s' stores, s.append facts = .ok (s', stores)) ↔ s.available = true ∧ s.Admits facts := by
  rw [← exists_acceptLines_iff hs]
  constructor
  · rintro ⟨s', stores, h⟩
    obtain ⟨havailable, b, hb, -, -⟩ := append_eq_ok h
    exact ⟨havailable, b, hb⟩
  · rintro ⟨havailable, b, hb⟩
    exact ⟨_, _, by rw [append, check_of_available havailable, hb]; rfl⟩

theorem append_eq_error (h : s.append facts = .error e) :
    s.available = false ∧ e = .unavailable "memory fact store marked unavailable" ∨
      s.available = true ∧ s.acceptLines facts = .error e := by
  cases havailable : s.available with
  | false =>
    rw [append, check_of_not_available havailable] at h
    exact .inl ⟨rfl, (Except.error.inj h).symm⟩
  | true =>
    rw [append, check_of_available havailable] at h
    cases hb : s.acceptLines facts with
    | error e' =>
      rw [hb] at h
      exact .inr ⟨rfl, congrArg Except.error (Except.error.inj h)⟩
    | ok b =>
      rw [hb] at h
      cases h

/-- A batch that has been taken is not taken again. -/
theorem append_again {f : FactRecord} {stores : KeySet String}
    (h : s.append (f :: facts) = .ok (s', stores)) :
    s'.append (f :: facts) = .error (.duplicateRecord f.recordId) := by
  obtain ⟨havailable, b, hb, -, hs'⟩ := append_eq_ok h
  have hcovers := covers_of_acceptLines hb
  obtain ⟨hid, horder, hstore⟩ := hcovers.named f List.mem_cons_self
  have havailable' : s'.available = true := by rw [hs']; exact havailable
  have hknown : s'.recordIds.contains f.recordId = true := by
    rw [hs', KeySet.contains_iff]
    exact KeySet.mem_union.2 (.inr ((hcovers.ids _).2 ⟨f, List.mem_cons_self, rfl⟩))
  have hnamed : ¬(f.recordId.isEmpty || f.orderId.isEmpty) = true := by
    rw [Bool.or_eq_true, String.isEmpty_iff, String.isEmpty_iff, not_or]
    exact ⟨hid, horder⟩
  have hfirst : s'.acceptLine {} f = .error (.duplicateRecord f.recordId) := by
    rw [acceptLine, if_neg hnamed, if_neg (mt String.isEmpty_iff.1 hstore), hknown, Bool.true_or,
      if_pos rfl]
  rw [append, check_of_available havailable', acceptLines, List.foldlM_cons, hfirst]
  rfl

/-- What is refused leaves no trace in what follows. -/
theorem run_append_error {ops : List FactOp} (h : (run ops).append facts = .error e)
    (more : List FactOp) : run (ops ++ .append facts :: more) = run (ops ++ more) := by
  rw [run_append, run_append, List.foldl_cons]
  congr 1
  rw [apply, h]

/-- **Appending is all or nothing**, and takes exactly the batches whose lines agree with each other
and with those that are stored.  A batch that is refused is refused for the first line up to which it
cannot be taken, which the error names, and nothing that follows depends on it. -/
theorem append_run (ops : List FactOp) (facts : List FactRecord) :
    ((∃ s' stores, (run ops).append facts = .ok (s', stores)) ↔
      (run ops).available = true ∧ (run ops).Admits facts) ∧
    (∀ s' stores, (run ops).append facts = .ok (s', stores) →
      run (ops ++ [.append facts]) = s' ∧ Appended (run ops) facts s' stores) ∧
    ∀ e, (run ops).append facts = .error e →
      (∀ more, run (ops ++ .append facts :: more) = run (ops ++ more)) ∧
      ((run ops).available = false ∧ e = .unavailable "memory fact store marked unavailable" ∨
        (run ops).available = true ∧ ∃ before f after, facts = before ++ f :: after ∧
          (run ops).Admits before ∧ ¬(run ops).Admits (before ++ [f]) ∧
          LineRefusal ((run ops).lines ++ before) f e ∧ e.culprit? = some f.recordId) := by
  have hs := (reachable_run ops).consistent
  refine ⟨exists_append_iff hs, fun s' stores h => ⟨?_, appended_of_append hs h⟩,
    fun e h => ⟨run_append_error h, ?_⟩⟩
  · rw [run_append]
    show (run ops).apply (.append facts) = s'
    rw [apply, h]
  · refine (append_eq_error h).imp_right fun ⟨havailable, hb⟩ => ⟨havailable, ?_⟩
    -- The first line that is refused tells the error; those before it were admitted.
    obtain ⟨before, f, after, hfacts, hbefore, hf⟩ := acceptLines_eq_error hs hb
    exact ⟨before, f, after, hfacts, hbefore, not_admits_of_refusal hf, hf, hf.culprit?⟩

/-- Three lines that came for another store, the second one of an order of the store `S1`. -/
def mixedBatch : List FactRecord :=
  [sampleLine "S2" "r2", { sampleLine "S2" "r3" with orderId := "r1" }, sampleLine "" "r4"]

/-- Once the order is known, the batch is refused for its second line and leaves no trace; its first
line alone is taken. -/
theorem append_mixedBatch :
    (∃ e, (run [.append [sampleLine "S1" "r1"]]).append mixedBatch = .error e ∧
      e.culprit? = some "r3" ∧
      run ([.append [sampleLine "S1" "r1"]] ++ .append mixedBatch :: [.purge "S2"]) =
        run ([.append [sampleLine "S1" "r1"]] ++ [.purge "S2"])) ∧
    ∃ s' stores, (run [.append [sampleLine "S1" "r1"]]).append (mixedBatch.take 1) =
        .ok (s', stores) ∧
      Appended (run [.append [sampleLine "S1" "r1"]]) (mixedBatch.take 1) s' stores := by
  constructor
  · have h : ((run [.append [sampleLine "S1" "r1"]]).append mixedBatch).map (fun _ => ()) =
        .error (.invalidRecord "r3" "order r1 lines disagree on store, channel or timestamp") := by
      decide +kernel
    rw [Except.map_eq_error] at h
    exact ⟨_, h, rfl, ((append_run _ _).2.2 _ h).1 _⟩
  · obtain ⟨⟨s', stores⟩, h, -⟩ := Except.exists_ok (P := fun _ => True)
      (x := (run [.append [sampleLine "S1" "r1"]]).append (mixedBatch.take 1)) (by decide +kernel)
    exact ⟨s', stores, h, ((append_run _ _).2.1 _ _ h).2⟩

end FactStore

end RetailReport
