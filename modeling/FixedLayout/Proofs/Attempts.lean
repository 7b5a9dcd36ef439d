import Mathlib.Data.List.Forall2

/-!
# Sequences of attempts

An attempt may fail, and a sequence of attempts stops at the first failure. The
laws below open such sequences: a check made of every item of a list, one attempt
after another, and one attempt after another over a state that survives a failure.
-/

namespace FixedLayout

variable {Failure Item Result Next State : Type}

/-- A sequence succeeds when both of its parts do. -/
theorem bind_eq_ok_iff {first : Except Failure Result} {next : Result → Except Failure Next}
    {final : Next} :
    (first >>= next) = .ok final ↔ ∃ result, first = .ok result ∧ next result = .ok final := by
  cases first with
  | error failure =>
      constructor
      · intro impossible
        cases impossible
      · rintro ⟨_, impossible, _⟩
        cases impossible
  | ok result =>
      constructor
      · intro succeeded
        exact ⟨result, rfl, succeeded⟩
      · rintro ⟨_, same, succeeded⟩
        cases same
        exact succeeded

/-- A sequence fails when its first part does, or its second part after the first
has succeeded. -/
theorem bind_eq_error_iff {first : Except Failure Result} {next : Result → Except Failure Next}
    {failure : Failure} :
    (first >>= next) = .error failure ↔
      first = .error failure ∨ ∃ result, first = .ok result ∧ next result = .error failure := by
  cases first with
  | error other =>
      constructor
      · intro failed
        cases failed
        exact .inl rfl
      · rintro (failed | ⟨_, impossible, _⟩)
        · cases failed
          rfl
        · cases impossible
  | ok result =>
      constructor
      · intro failed
        exact .inr ⟨result, rfl, failed⟩
      · rintro (impossible | ⟨_, same, failed⟩)
        · cases impossible
        · cases same
          exact failed

/-- What is made of a result does not change whether there is one. -/
theorem map_eq_ok_iff {attempt : Except Failure Result} {make : Result → Next} {final : Next} :
    attempt.map make = .ok final ↔ ∃ result, attempt = .ok result ∧ make result = final := by
  cases attempt <;> simp [Except.map]

/-- Making something of a result leaves failures as they are. -/
theorem map_eq_error_iff {attempt : Except Failure Result} {make : Result → Next}
    {failure : Failure} : attempt.map make = .error failure ↔ attempt = .error failure := by
  cases attempt <;> simp [Except.map]

/-- Checking every item succeeds when every check does. -/
theorem forM_eq_ok_iff {check : Item → Except Failure Unit} {items : List Item} :
    items.forM check = .ok () ↔ ∀ item ∈ items, check item = .ok () := by
  induction items with
  | nil => simp [pure, Except.pure]
  | cons item items inductionHypothesis =>
      rw [List.forM_eq_forM] at inductionHypothesis ⊢
      rw [List.forM_cons, bind_eq_ok_iff, List.forall_mem_cons, ← inductionHypothesis]
      constructor
      · rintro ⟨_, passed, others⟩
        exact ⟨passed, others⟩
      · rintro ⟨passed, others⟩
        exact ⟨(), passed, others⟩

/-- Checking every item reports the first item whose check fails. -/
theorem forM_eq_error_iff {check : Item → Except Failure Unit} {items : List Item}
    {failure : Failure} :
    items.forM check = .error failure ↔
      ∃ earlier item later, items = earlier ++ item :: later ∧
        (∀ other ∈ earlier, check other = .ok ()) ∧ check item = .error failure := by
  induction items with
  | nil => simp [pure, Except.pure]
  | cons item items inductionHypothesis =>
      rw [List.forM_eq_forM, List.forM_cons, bind_eq_error_iff]
      constructor
      · rintro (failed | ⟨_, passed, failed⟩)
        · exact ⟨[], item, items, rfl, by simp, failed⟩
        · obtain ⟨earlier, found, later, rfl, passedBefore, failed⟩ := inductionHypothesis.mp failed
          refine ⟨item :: earlier, found, later, rfl, ?_, failed⟩
          intro other member
          rcases List.mem_cons.mp member with rfl | member
          · exact passed
          · exact passedBefore other member
      · rintro ⟨earlier, found, later, split, passedBefore, failed⟩
        cases earlier with
        | nil =>
            cases split
            exact .inl failed
        | cons first earlier =>
            obtain ⟨rfl, rfl⟩ := List.cons.inj split
            refine .inr ⟨(), passedBefore item List.mem_cons_self, inductionHypothesis.mpr ?_⟩
            exact ⟨earlier, found, later, rfl,
              fun other member => passedBefore other (List.mem_cons_of_mem _ member), failed⟩

/-- Items are related to what is made of them if each is. -/
theorem forall₂_map {Related : Item → Result → Prop} {make : Item → Result} {items : List Item}
    (each : ∀ item ∈ items, Related item (make item)) :
    List.Forall₂ Related items (items.map make) :=
  List.forall₂_map_right_iff.mpr (List.forall₂_same.mpr each)

/-- Every item has a result when each has one. -/
theorem mapM_eq_ok_iff {read : Item → Except Failure Result} {items : List Item}
    {results : List Result} :
    items.mapM read = .ok results ↔
      List.Forall₂ (fun item result => read item = .ok result) items results := by
  induction items generalizing results with
  | nil =>
      rw [List.forall₂_nil_left_iff]
      exact ⟨fun same => (Except.ok.inj same).symm, fun empty => congrArg Except.ok empty.symm⟩
  | cons item items inductionHypothesis =>
      simp only [List.mapM_cons, bind_eq_ok_iff, List.forall₂_cons_left_iff, inductionHypothesis]
      constructor
      · rintro ⟨result, read, others, readOthers, same⟩
        exact ⟨result, others, read, readOthers, (Except.ok.inj same).symm⟩
      · rintro ⟨result, others, read, readOthers, rfl⟩
        exact ⟨result, read, others, readOthers, rfl⟩

/-- The results are those made of the items if each result is made of its item. -/
theorem mapM_eq_ok_map {read : Item → Except Failure Result} {make : Item → Result}
    {items : List Item} (each : ∀ item ∈ items, read item = .ok (make item)) :
    items.mapM read = .ok (items.map make) :=
  mapM_eq_ok_iff.mpr (forall₂_map each)

/-- Items that leave a state as it is may be left out. -/
theorem foldlM_filter_of_skips {step : State → Item → Except Failure State} {keeps : Item → Bool}
    (skips : ∀ state item, keeps item = false → step state item = .ok state) (items : List Item)
    (state : State) : (items.filter keeps).foldlM step state = items.foldlM step state := by
  have same : (fun state item => if keeps item then step state item else pure state) = step := by
    funext state item
    cases kept : keeps item with
    | true => rfl
    | false => exact (skips state item kept).symm
  rw [List.foldlM_filter, same]

/-- Over a state, a sequence goes on from the state that its first part leaves. -/
theorem run_bind_of_ok {first : ExceptT Failure (StateM State) Result}
    {next : Result → ExceptT Failure (StateM State) Next} {state after : State} {result : Result}
    (succeeded : first.run.run state = (.ok result, after)) :
    (first >>= next).run.run state = (next result).run.run after := by
  rw [ExceptT.run_bind, StateT.run_bind, succeeded]
  rfl

/-- Over a state, a sequence keeps the state that its failing first part leaves. -/
theorem run_bind_of_error {first : ExceptT Failure (StateM State) Result}
    {next : Result → ExceptT Failure (StateM State) Next} {state after : State}
    {failure : Failure} (failed : first.run.run state = (.error failure, after)) :
    (first >>= next).run.run state = (.error failure, after) := by
  rw [ExceptT.run_bind, StateT.run_bind, failed]
  rfl

end FixedLayout
