import FixedLayout.Proofs.Layout.WellFormed

/-!
# The first fault of a declaration

A check of a declaration carries along the names that it has met. `Layout.FirstFault` says
without them which fault is the first one: by the places of variants and fields, with the
repeated name of a variant before the fields of the same variant. `Layout.reportsFirstFault`
says that validation accepts exactly the well-formed layouts and otherwise reports this fault
and no other.
-/

namespace FixedLayout

section Search

variable {Item Result : Type} {finds : List Item → Item → Result → Prop}
  {check : List Item → Item → Option Result} {before items : List Item} {result : Result}

/-- Something is found at a place of a list and nothing at an earlier one. What is found at a
place may depend on the items before it. -/
structure FirstFound (finds : List Item → Item → Result → Prop) (items : List Item)
    (index : Nat) (result : Result) : Prop where
  found : ∃ item, items[index]? = some item ∧ finds (items.take index) item result
  first : ∀ earlier other, earlier < index → items[earlier]? = some other →
    ∀ result, ¬ finds (items.take earlier) other result

/-- What a check finds first among some items, given the items before them. -/
def searchFrom (check : List Item → Item → Option Result) : List Item → List Item → Option Result
  | _, [] => none
  | before, item :: items =>
      match check before item with
      | some result => some result
      | none => searchFrom check (before ++ [item]) items

/-- A search ends at the first item for which the check finds something. -/
theorem searchFrom_eq_some_iff :
    searchFrom check before items = some result ↔
      ∃ index item, items[index]? = some item ∧
        check (before ++ items.take index) item = some result ∧
          ∀ earlier other, earlier < index → items[earlier]? = some other →
            check (before ++ items.take earlier) other = none := by
  induction items generalizing before with
  | nil => simp [searchFrom]
  | cons item items inductionHypothesis =>
      rw [searchFrom]
      cases here : check before item with
      | some found =>
          constructor
          · intro same
            cases same
            exact ⟨0, item, rfl, by simpa using here, nofun⟩
          · rintro ⟨index, other, place, holds, clear⟩
            cases index with
            | zero =>
                cases place
                rw [← holds, List.take_zero, List.append_nil, here]
            | succ index =>
                have nothing := clear 0 item index.succ_pos rfl
                rw [List.take_zero, List.append_nil, here] at nothing
                cases nothing
      | none =>
          -- Behind this item the items before are the ones before it and itself.
          have shift : ∀ index, before ++ (item :: items).take (index + 1) =
              before ++ [item] ++ items.take index := by simp
          refine inductionHypothesis.trans ⟨?_, ?_⟩
          · rintro ⟨index, other, place, holds, clear⟩
            refine ⟨index + 1, other, place, by rw [shift, holds], ?_⟩
            intro earlier another less there
            cases earlier with
            | zero =>
                cases there
                simpa using here
            | succ earlier =>
                rw [shift]
                exact clear earlier another (Nat.lt_of_succ_lt_succ less) there
          · rintro ⟨index, other, place, holds, clear⟩
            cases index with
            | zero =>
                cases place
                rw [List.take_zero, List.append_nil, here] at holds
                cases holds
            | succ index =>
                rw [shift] at holds
                refine ⟨index, other, place, holds, fun earlier another less there => ?_⟩
                rw [← shift]
                exact clear (earlier + 1) another (Nat.succ_lt_succ less) there

/-- A search by a check that finds what has to be found finds the first of it. -/
theorem searchFrom_nil_eq_some_iff
    (complete : ∀ before item result, check before item = some result ↔ finds before item result) :
    searchFrom check [] items = some result ↔ ∃ index, FirstFound finds items index result := by
  have clear : ∀ before item, check before item = none ↔ ∀ result, ¬ finds before item result := by
    intro before item
    rw [Option.eq_none_iff_forall_ne_some]
    exact forall_congr' fun result => not_congr (complete before item result)
  rw [searchFrom_eq_some_iff]
  simp only [List.nil_append, complete, clear]
  constructor
  · rintro ⟨index, item, place, found, first⟩
    exact ⟨index, ⟨item, place, found⟩, first⟩
  · rintro ⟨index, ⟨item, place, found⟩, first⟩
    exact ⟨index, item, place, found, first⟩

end Search

/-- A name that stands before itself in a list. -/
def Repeats (before : List String) (name repeated : String) : Prop :=
  name ∈ before ∧ repeated = name

/-- The first repeated name is the one at the first place whose name stands before it. -/
theorem firstRepeat_eq_some_iff {names : List String} {repeated : String} :
    firstRepeat [] names = some repeated ↔ ∃ index, FirstFound Repeats names index repeated := by
  -- The names seen so far are those before the place, in whatever order.
  have search : ∀ seen before, (∀ name, name ∈ seen ↔ name ∈ before) →
      firstRepeat seen names =
        searchFrom (fun before name => if name ∈ before then some name else none) before names := by
    induction names with
    | nil => exact fun _ _ _ => rfl
    | cons name names inductionHypothesis =>
        intro seen before same
        rw [firstRepeat, searchFrom]
        by_cases known : name ∈ before
        · simp only [same, if_pos known]
        · simp only [same, if_neg known]
          refine inductionHypothesis _ _ fun other => ?_
          simp [same, or_comm]
  rw [search [] [] fun _ => Iff.rfl]
  refine searchFrom_nil_eq_some_iff fun before name result => ?_
  rw [Repeats]
  by_cases known : name ∈ before <;> simp [known, eq_comm]

/-- The fault of some fields is the first name that repeats one before it. -/
theorem fieldFault?_eq_some_iff {owner : String} {fields : List Field} {fault : DeclarationFault} :
    fieldFault? owner fields = some fault ↔
      ∃ index name, FirstFound Repeats (fields.map Field.name) index name ∧
        fault = .repeatedField owner name := by
  rw [fieldFault?, Option.map_eq_some_iff]
  simp only [firstRepeat_eq_some_iff]
  constructor
  · rintro ⟨name, ⟨index, first⟩, rfl⟩
    exact ⟨index, name, first, rfl⟩
  · rintro ⟨index, name, first, rfl⟩
    exact ⟨name, ⟨index, first⟩, rfl⟩

namespace EnumLayout

variable {declared : EnumLayout} {before : List Variant} {variant : Variant}
  {fault : DeclarationFault}

/-- The fault of a variant behind others: its name is that of one before it, or else a field of
its payload has the name of one before it. -/
inductive Faulty (declared : EnumLayout) (before : List Variant) (variant : Variant) :
    DeclarationFault → Prop where
  | repeatedVariant (repeated : variant.name ∈ before.map Variant.name) :
      Faulty declared before variant (.repeatedVariant declared.name variant.name)
  | repeatedField {fields index name} (fresh : variant.name ∉ before.map Variant.name)
      (carries : variant.payload = some fields)
      (first : FirstFound Repeats (fields.map Field.name) index name) :
      Faulty declared before variant
        (.repeatedField (declared.name ++ "::" ++ variant.name) name)

/-- The fault of a variant as it is looked for. -/
def checkVariant (declared : EnumLayout) (before : List Variant) (variant : Variant) :
    Option DeclarationFault :=
  if variant.name ∈ before.map Variant.name then
    some (.repeatedVariant declared.name variant.name)
  else variant.payload.bind (fieldFault? (declared.ownerName variant))

/-- What is found at a variant is its fault behind those before it. -/
theorem checkVariant_eq_some_iff :
    declared.checkVariant before variant = some fault ↔ declared.Faulty before variant fault := by
  rw [checkVariant]
  by_cases known : variant.name ∈ before.map Variant.name
  · rw [if_pos known]
    constructor
    · intro same
      cases same
      exact .repeatedVariant known
    · intro faulty
      cases faulty with
      | repeatedVariant => rfl
      | repeatedField fresh => exact absurd known fresh
  · rw [if_neg known, Option.bind_eq_some_iff]
    simp only [fieldFault?_eq_some_iff]
    constructor
    · rintro ⟨fields, carries, index, name, first, rfl⟩
      exact .repeatedField known carries first
    · intro faulty
      cases faulty with
      | repeatedVariant repeated => exact absurd repeated known
      | repeatedField _ carries first => exact ⟨_, carries, _, _, first, rfl⟩

/-- The fault reported among the variants is that of the first variant that has one. -/
theorem variantFault?_eq_some_iff :
    declared.variantFault? [] declared.variants = some fault ↔
      ∃ index, FirstFound declared.Faulty declared.variants index fault := by
  have search : ∀ variants seen before,
      (∀ name, name ∈ seen ↔ name ∈ before.map Variant.name) →
        declared.variantFault? seen variants =
          searchFrom declared.checkVariant before variants := by
    intro variants
    induction variants with
    | nil => exact fun _ _ _ => rfl
    | cons variant variants inductionHypothesis =>
        intro seen before same
        rw [variantFault?, searchFrom, checkVariant]
        by_cases known : variant.name ∈ before.map Variant.name
        · simp only [same, if_pos known]
        · simp only [same, if_neg known]
          cases variant.payload.bind (fieldFault? (declared.ownerName variant)) with
          | some fault => rfl
          | none =>
              refine inductionHypothesis _ _ fun other => ?_
              simp [same, or_comm]
  rw [search declared.variants [] [] fun _ => Iff.rfl]
  exact searchFrom_nil_eq_some_iff fun _ _ _ => checkVariant_eq_some_iff

end EnumLayout

namespace Layout

/-- The fault that a declaration has to be refused for. -/
inductive FirstFault : Layout → DeclarationFault → Prop where
  | repeatedField {declared index name}
      (first : FirstFound Repeats (declared.fields.map Field.name) index name) :
      FirstFault (.struct declared) (.repeatedField declared.name name)
  | tooManyVariants {declared}
      (tooMany : EnumLayout.greatestCount < declared.variants.length) :
      FirstFault (.enum declared) (.tooManyVariants declared.name declared.variants.length)
  | variant {declared index fault}
      (few : declared.variants.length ≤ EnumLayout.greatestCount)
      (first : FirstFound declared.Faulty declared.variants index fault) :
      FirstFault (.enum declared) fault

/-- What is reported of a layout is its first fault. -/
theorem fault?_eq_some_iff {layout : Layout} {fault : DeclarationFault} :
    layout.fault? = some fault ↔ layout.FirstFault fault := by
  cases layout with
  | struct declared =>
      rw [fault?, fieldFault?_eq_some_iff]
      constructor
      · rintro ⟨index, name, first, rfl⟩
        exact .repeatedField first
      · intro specified
        cases specified with
        | repeatedField first => exact ⟨_, _, first, rfl⟩
  | enum declared =>
      rw [fault?, EnumLayout.fault?]
      by_cases tooMany : EnumLayout.greatestCount < declared.variants.length
      · rw [if_pos tooMany]
        constructor
        · intro same
          cases same
          exact .tooManyVariants tooMany
        · intro specified
          cases specified with
          | tooManyVariants => rfl
          | variant few => exact absurd tooMany (Nat.not_lt_of_le few)
      · rw [if_neg tooMany, EnumLayout.variantFault?_eq_some_iff]
        constructor
        · rintro ⟨index, first⟩
          exact .variant (Nat.le_of_not_lt tooMany) first
        · intro specified
          cases specified with
          | tooManyVariants many => exact absurd many tooMany
          | variant _ first => exact ⟨_, first⟩

/-- What validation says about a declaration. -/
structure ReportsFirstFault (layout : Layout) : Prop where
  /-- Accepted is exactly what is well formed. -/
  accepts_iff : layout.validate = .ok () ↔ layout.WellFormed
  /-- Everything else is refused for its first fault, and only for that. -/
  refuses_iff : ∀ error, layout.validate = .error error ↔
    ∃ fault, layout.FirstFault fault ∧ error = .invalidSchema (.declaration fault)

/-- Validation accepts the well-formed layouts and reports the first fault of all others. -/
theorem reportsFirstFault (layout : Layout) : layout.ReportsFirstFault := by
  refine ⟨validate_eq_ok_iff, fun error => ?_⟩
  simp only [← fault?_eq_some_iff, validate]
  cases layout.fault? <;> simp [eq_comm]

-- A repeated name of a variant is reported before the fields of the variant.
example :
    (Layout.enum ⟨"Side", [⟨"Buy", none⟩, ⟨"Buy", some [⟨"size", .u8⟩, ⟨"size", .u8⟩]⟩]⟩).validate =
      .error (.invalidSchema (.declaration (.repeatedVariant "Side" "Buy"))) := rfl

end Layout

end FixedLayout
