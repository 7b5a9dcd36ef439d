import FixedLayout.Proofs.Attempts
import FixedLayout.Proofs.Layout.WellFormed
import FixedLayout.Proofs.Members
import FixedLayout.Registry.Text

/-!
# Registration sessions

`Registry.Registers` says all that one registration can do to a registry, and
`Registry.Sound` what every registration preserves: keys are names, no two are the same,
and every layout is valid. `Registry.keeps_run` says what a registry shows at every
moment of a session that starts empty, and that registries of lists and of texts are
such registries.
-/

namespace FixedLayout.Registry

/-- What registering a layout answers, and the registry after it. -/
inductive Registers (registry : Registry) (layout : Layout) :
    Except LayoutError Unit → Registry → Prop where
  | invalid {error} (invalid : layout.validate = .error error) :
      Registers registry layout (.error error) registry
  | repeated (valid : layout.validate = .ok ()) (known : registry.contains layout.name) :
      Registers registry layout
        (.error (.invalidSchema (.declaration (.repeatedType layout.name)))) registry
  | stored (valid : layout.validate = .ok ()) (fresh : ¬ registry.contains layout.name) :
      Registers registry layout (.ok ()) (registry.put layout.name layout)

section Step

variable {registry after : Registry} {layout : Layout} {outcome : Except LayoutError Unit}

/-- Every registration has a specified answer. -/
theorem exists_registers (registry : Registry) (layout : Layout) :
    ∃ outcome after, Registers registry layout outcome after := by
  cases checked : layout.validate with
  | error error => exact ⟨_, _, .invalid checked⟩
  | ok _ =>
      by_cases known : registry.contains layout.name
      · exact ⟨_, _, .repeated checked known⟩
      · exact ⟨_, _, .stored checked known⟩

/-- A layout is put under its name unless it is invalid or the name is taken, in this order; a
refusal changes nothing. -/
theorem perform_register (registry : Registry) (layout : Layout) :
    (register layout).perform registry =
      match layout.validate with
      | .error error => (.error error, registry)
      | .ok _ =>
          if registry.contains layout.name then
            (.error (.invalidSchema (.declaration (.repeatedType layout.name))), registry)
          else (.ok (), registry.put layout.name layout) := by
  have looked : (getThe Registry : Registering Registry).run.run registry =
      (.ok registry, registry) := rfl
  rw [Registering.perform, register]
  cases layout.validate with
  | error error => rfl
  | ok _ =>
      have passed : (ofExcept (.ok ()) : Registering Unit).run.run registry =
          (.ok (), registry) := rfl
      rw [run_bind_of_ok passed, run_bind_of_ok looked]
      by_cases known : registry.contains layout.name
      · simp only [if_pos known]
        rfl
      · simp only [if_neg known]
        rfl

/-- Registering does what is specified of it. -/
theorem Registers.perform_eq (registers : Registers registry layout outcome after) :
    (register layout).perform registry = (outcome, after) := by
  rw [perform_register]
  cases registers with
  | invalid invalid => rw [invalid]
  | repeated valid known => simp only [valid, if_pos known]
  | stored valid fresh => simp only [valid, if_neg fresh]

/-- What registering does is exactly what is specified of it. -/
theorem registers_iff :
    Registers registry layout outcome after ↔
      (register layout).perform registry = (outcome, after) := by
  constructor
  · exact Registers.perform_eq
  · intro performed
    obtain ⟨found, left, registers⟩ := exists_registers registry layout
    rw [registers.perform_eq] at performed
    cases performed
    exact registers

/-- Registering a layout does what is specified of it. -/
theorem registers_perform (registry : Registry) (layout : Layout) :
    Registers registry layout ((register layout).perform registry).1
      ((register layout).perform registry).2 :=
  registers_iff.mpr rfl

end Step

/-- There is a layout under a key when the key is taken. -/
theorem contains_iff {registry : Registry} {key : String} :
    registry.contains key ↔ key ∈ registry.types.map Prod.fst :=
  isSome_lookup_iff

/-- A layout with a new key is put at the end. -/
theorem put_of_not_contains {registry : Registry} {key : String} (layout : Layout)
    (fresh : ¬ registry.contains key) :
    registry.put key layout = ⟨registry.types ++ [(key, layout)]⟩ := by
  rw [contains_iff] at fresh
  rw [put, Json.putMember_of_not_mem fresh]

/-- What every registration preserves. -/
structure Sound (registry : Registry) : Prop where
  /-- Every key is the name of the layout under it. -/
  keyed : ∀ entry ∈ registry.types, entry.1 = entry.2.name
  /-- No two keys are the same. -/
  distinct : (registry.types.map Prod.fst).Nodup
  /-- Every layout passes validation. -/
  valid : ∀ entry ∈ registry.types, entry.2.validate = .ok ()

/-- The empty registry is sound. -/
theorem sound_empty : empty.Sound where
  keyed := nofun
  distinct := List.nodup_nil
  valid := nofun

section Invariant

variable {registry after : Registry} {layout : Layout} {outcome : Except LayoutError Unit}

/-- A registration preserves soundness, whatever its outcome. -/
theorem Registers.sound (registers : Registers registry layout outcome after)
    (sound : registry.Sound) : after.Sound := by
  cases registers with
  | invalid => exact sound
  | repeated => exact sound
  | stored valid fresh =>
      have unknown := mt contains_iff.mpr fresh
      rw [put_of_not_contains layout fresh]
      refine ⟨?keyed, ?distinct, ?valid⟩
      case keyed => exact List.forall_mem_append.mpr ⟨sound.keyed, by simp⟩
      case distinct =>
        rw [List.map_append, List.nodup_append]
        refine ⟨sound.distinct, by simp, fun key known other last same => ?_⟩
        rw [List.map_singleton, List.mem_singleton] at last
        rw [same, last] at known
        exact unknown known
      case valid => exact List.forall_mem_append.mpr ⟨sound.valid, by simpa using valid⟩

/-- A registration adds the layout at the end if it succeeds, and nothing else ever. -/
theorem Registers.types_eq (registers : Registers registry layout outcome after) :
    after.types =
      registry.types ++ if outcome.isOk then [(layout.name, layout)] else [] := by
  cases registers with
  | invalid => exact (List.append_nil _).symm
  | repeated => exact (List.append_nil _).symm
  | stored valid fresh =>
      rw [put_of_not_contains layout fresh]
      rfl

/-- In a sound registry the keys are the names. -/
theorem Sound.map_key_types (sound : registry.Sound) :
    registry.types.map Prod.fst = registry.names := by
  rw [names, layouts, List.map_map]
  exact List.map_congr_left sound.keyed

/-- In a sound registry no name is registered twice. -/
theorem Sound.nodup_names (sound : registry.Sound) : registry.names.Nodup :=
  sound.map_key_types ▸ sound.distinct

/-- A sound registry refuses exactly the layouts that are invalid or whose name is taken. -/
theorem Registers.refused_iff (registers : Registers registry layout outcome after)
    (sound : registry.Sound) :
    (∃ error, outcome = .error error) ↔
      layout.validate ≠ .ok () ∨ layout.name ∈ registry.names := by
  rw [← sound.map_key_types, ← contains_iff]
  cases registers with
  | invalid invalid => simp [invalid]
  | repeated valid known => simp [known]
  | stored valid fresh => simp [valid, fresh]

/-- A refused layout leaves the registry as it was. -/
theorem Registers.unchanged {error : LayoutError}
    (registers : Registers registry layout (.error error) after) : after = registry := by
  cases registers <;> rfl

/-- A sound registry holds well-formed layouts only. -/
theorem Sound.wellFormed (sound : registry.Sound) (member : layout ∈ registry.layouts) :
    layout.WellFormed := by
  obtain ⟨entry, stored, rfl⟩ := List.mem_map.mp member
  exact Layout.validate_eq_ok_iff.mp (sound.valid entry stored)

/-- A layout is given for a key exactly if it is found under it. -/
theorem get_eq_ok_iff {key : String} :
    registry.get key = .ok layout ↔ registry.find? key = some layout := by
  rw [get]
  cases registry.find? key <;> simp

/-- In a sound registry a name leads to the layout that bears it. -/
theorem Sound.get_eq_ok_iff (sound : registry.Sound) {name : String} :
    registry.get name = .ok layout ↔ layout ∈ registry.layouts ∧ layout.name = name := by
  rw [Registry.get_eq_ok_iff, find?, lookup_eq_some_iff_mem sound.distinct, layouts, List.mem_map]
  constructor
  · intro member
    exact ⟨⟨_, member, rfl⟩, (sound.keyed _ member).symm⟩
  · rintro ⟨⟨entry, member, rfl⟩, rfl⟩
    rw [← sound.keyed entry member]
    exact member

end Invariant

/-- The registry after a session. -/
def finish (attempts : List Layout) (registry : Registry) : Registry :=
  attempts.foldl (fun registry layout => ((register layout).perform registry).2) registry

/-- The layouts that a session registers. -/
def accepted (attempts : List Layout) (registry : Registry) : List Layout :=
  ((attempts.zip (run attempts registry)).filter fun made => made.2.1.isOk).map Prod.fst

section Session

variable {registry : Registry} {attempts : List Layout}

/-- A session goes on with the registry that its first attempt leaves. -/
theorem finish_cons (layout : Layout) (attempts : List Layout) (registry : Registry) :
    finish (layout :: attempts) registry =
      finish attempts ((register layout).perform registry).2 := rfl

/-- Two sessions one after the other are one session. -/
theorem finish_append (earlier later : List Layout) (registry : Registry) :
    finish (earlier ++ later) registry = finish later (finish earlier registry) :=
  List.foldl_append

/-- The first moment of a session is its first attempt, the others are those of the rest. -/
theorem run_cons (layout : Layout) (attempts : List Layout) (registry : Registry) :
    run (layout :: attempts) registry =
      (register layout).perform registry :: run attempts ((register layout).perform registry).2 :=
  rfl

/-- The first layout is accepted exactly if its attempt succeeds; the others go on from there. -/
theorem accepted_cons (layout : Layout) (attempts : List Layout) (registry : Registry) :
    accepted (layout :: attempts) registry =
      (if ((register layout).perform registry).1.isOk then [layout] else []) ++
        accepted attempts ((register layout).perform registry).2 := by
  rw [accepted, run_cons, List.zip_cons_cons, List.filter_cons]
  split <;> rfl

/-- A session shows the outcome of each registration on the registry that those before it
have left. -/
theorem getElem?_run (attempts : List Layout) (moment : Nat) (registry : Registry) :
    (run attempts registry)[moment]? =
      attempts[moment]?.map fun layout =>
        (register layout).perform (finish (attempts.take moment) registry) := by
  induction attempts generalizing moment registry with
  | nil => rfl
  | cons first attempts inductionHypothesis =>
      rw [run_cons]
      cases moment with
      | zero => rfl
      | succ moment =>
          rw [List.getElem?_cons_succ, List.getElem?_cons_succ, List.take_succ_cons, finish_cons,
            inductionHypothesis]

/-- What stands at a moment of a session is what the attempts up to then leave. -/
theorem eq_finish_of_getElem?_run {moment : Nat} {outcome : Except LayoutError Unit}
    {after : Registry} (shown : (run attempts registry)[moment]? = some (outcome, after)) :
    after = finish (attempts.take (moment + 1)) registry := by
  rw [getElem?_run, Option.map_eq_some_iff] at shown
  obtain ⟨layout, here, performed⟩ := shown
  rw [List.take_add_one, here, finish_append, Option.toList_some, finish_cons, performed]
  rfl

/-- A session adds what it registers, in order, and nothing else. -/
theorem types_finish (attempts : List Layout) (registry : Registry) :
    (finish attempts registry).types =
      registry.types ++ (accepted attempts registry).map fun layout => (layout.name, layout) := by
  induction attempts generalizing registry with
  | nil => exact (List.append_nil _).symm
  | cons layout attempts inductionHypothesis =>
      rw [finish_cons, inductionHypothesis, (registers_perform registry layout).types_eq,
        accepted_cons, List.map_append, List.append_assoc]
      split <;> rfl

/-- A session on the empty registry ends with what it registers. -/
theorem layouts_finish (attempts : List Layout) :
    (finish attempts empty).layouts = accepted attempts empty := by
  rw [layouts, types_finish, List.map_append, List.map_map]
  exact List.map_id _

/-- A session registers no more than it attempts. -/
theorem length_accepted_le (attempts : List Layout) (registry : Registry) :
    (accepted attempts registry).length ≤ attempts.length := by
  rw [accepted, List.length_map]
  refine Nat.le_trans (List.length_filter_le _ _) ?_
  rw [List.length_zip]
  exact Nat.min_le_left _ _

/-- Inserting goes on from the registry that a successful registration leaves. -/
theorem insert_eq_ok_iff {layout : Layout} {after : Registry} :
    registry.insert layout = .ok after ↔ (register layout).perform registry = (.ok (), after) := by
  rw [insert]
  rcases (register layout).perform registry with ⟨error | _, next⟩ <;> simp

/-- Layouts are all inserted when a session registers each of them. -/
theorem foldlM_insert_eq_ok_iff {after : Registry} :
    attempts.foldlM insert registry = .ok after ↔
      accepted attempts registry = attempts ∧ after = finish attempts registry := by
  induction attempts generalizing registry with
  | nil =>
      rw [List.foldlM_nil]
      simp [pure, Except.pure, accepted, finish, eq_comm]
  | cons layout attempts inductionHypothesis =>
      rw [List.foldlM_cons, bind_eq_ok_iff, accepted_cons, finish_cons]
      simp only [insert_eq_ok_iff]
      rcases performed : (register layout).perform registry with ⟨error | _, next⟩
      · constructor
        · rintro ⟨_, impossible, _⟩
          cases impossible
        · rintro ⟨all, _⟩
          -- One attempt too few is left to make up for the refused one.
          have few := length_accepted_le attempts next
          simp only [Except.isOk, Except.toBool, Bool.false_eq_true, if_false,
            List.nil_append] at all
          rw [all, List.length_cons] at few
          omega
      · simp [inductionHypothesis, Except.isOk, Except.toBool]

/-- The registry of some layouts is that of a session which registers them all. -/
theorem ofLayouts_eq_ok_iff :
    ofLayouts attempts = .ok registry ↔
      accepted attempts empty = attempts ∧ registry = finish attempts empty :=
  foldlM_insert_eq_ok_iff

/-- The registry of a text is that of the layouts that the text describes. -/
theorem ofText_eq_ok_iff {text : String} :
    ofText text = .ok registry ↔
      ∃ layouts, layoutsOfText text = .ok layouts ∧ ofLayouts layouts = .ok registry :=
  bind_eq_ok_iff

end Session

/-- The registries that registrations lead to from the empty one. -/
inductive Reachable : Registry → Prop where
  | empty : Reachable empty
  | register {registry} (reachable : Reachable registry) (layout : Layout) :
      Reachable ((register layout).perform registry).2

/-- Every reachable registry is sound. -/
theorem Reachable.sound {registry : Registry} (reachable : registry.Reachable) :
    registry.Sound := by
  induction reachable with
  | empty => exact sound_empty
  | register _ layout inductionHypothesis =>
      exact (registers_perform _ layout).sound inductionHypothesis

/-- A session leads from a reachable registry to a reachable one. -/
theorem Reachable.finish {registry : Registry} (reachable : registry.Reachable)
    (attempts : List Layout) : (finish attempts registry).Reachable := by
  induction attempts generalizing registry with
  | nil => exact reachable
  | cons layout attempts inductionHypothesis =>
      exact inductionHypothesis (reachable.register layout)

/-- A registry that is made of a list of layouts is reachable. -/
theorem reachable_of_ofLayouts {layouts : List Layout} {registry : Registry}
    (held : ofLayouts layouts = .ok registry) : registry.Reachable := by
  obtain ⟨_, rfl⟩ := ofLayouts_eq_ok_iff.mp held
  exact Reachable.empty.finish layouts

/-- A registry that is loaded from a text is reachable. -/
theorem reachable_of_ofText {text : String} {registry : Registry}
    (loaded : ofText text = .ok registry) : registry.Reachable := by
  obtain ⟨layouts, _, held⟩ := ofText_eq_ok_iff.mp loaded
  exact reachable_of_ofLayouts held

section Lists

variable {registry : Registry} {layouts : List Layout}

/-- Some layouts under their names. -/
def holding (layouts : List Layout) : Registry :=
  ⟨layouts.map fun layout => (layout.name, layout)⟩

/-- The registry that holds some layouts lists exactly them. -/
@[simp] theorem layouts_holding (layouts : List Layout) : (holding layouts).layouts = layouts := by
  rw [Registry.layouts, holding, List.map_map]
  exact List.map_id _

/-- The registry that holds some layouts holds them under their names. -/
theorem map_key_types_holding (layouts : List Layout) :
    (holding layouts).types.map Prod.fst = layouts.map Layout.name :=
  List.map_map

/-- A sound registry holds its layouts under their names. -/
theorem Sound.eq_holding (sound : registry.Sound) : registry = holding registry.layouts := by
  apply congrArg Registry.mk
  rw [Registry.layouts, List.map_map]
  exact (List.map_id _).symm.trans
    (List.map_congr_left fun entry member => Prod.ext (sound.keyed entry member) rfl)

/-- Valid layouts with new and distinct names are all inserted. -/
theorem foldlM_insert_of_nodup (valid : ∀ layout ∈ layouts, layout.validate = .ok ())
    (distinct : (registry.types.map Prod.fst ++ layouts.map Layout.name).Nodup) :
    layouts.foldlM insert registry = .ok ⟨registry.types ++ (holding layouts).types⟩ := by
  induction layouts generalizing registry with
  | nil => exact congrArg (Except.ok ∘ Registry.mk) (List.append_nil _).symm
  | cons layout layouts inductionHypothesis =>
      obtain ⟨first, others⟩ := List.forall_mem_cons.mp valid
      have fresh : ¬ registry.contains layout.name := by
        rw [contains_iff]
        intro known
        exact (List.nodup_append.mp distinct).2.2 _ known layout.name (by simp) rfl
      have stored := insert_eq_ok_iff.mpr (Registers.stored first fresh).perform_eq
      rw [put_of_not_contains layout fresh] at stored
      rw [List.foldlM_cons, stored]
      refine (inductionHypothesis others (by simpa using distinct)).trans ?_
      rw [List.append_assoc]
      rfl

/-- The registry of some layouts holds them, and there is one when all of them are valid and
no two have one name. -/
theorem ofLayouts_eq_ok_iff_distinct :
    ofLayouts layouts = .ok registry ↔
      ((∀ layout ∈ layouts, layout.validate = .ok ()) ∧ (layouts.map Layout.name).Nodup) ∧
        registry = holding layouts := by
  constructor
  · intro held
    have sound := (reachable_of_ofLayouts held).sound
    obtain ⟨all, rfl⟩ := ofLayouts_eq_ok_iff.mp held
    have holds : finish layouts empty = holding layouts := by
      rw [sound.eq_holding, layouts_finish, all]
    rw [holds] at sound
    refine ⟨⟨fun layout member => ?_, map_key_types_holding layouts ▸ sound.distinct⟩, holds⟩
    exact sound.valid (layout.name, layout) (List.mem_map_of_mem member)
  · rintro ⟨⟨valid, distinct⟩, rfl⟩
    exact foldlM_insert_of_nodup valid distinct

/-- Under distinct keys, the order of registration does not count when registries are compared. -/
theorem sameTypes_of_perm {other : Registry} (distinct : (registry.types.map Prod.fst).Nodup)
    (same : registry.types.Perm other.types) : registry.sameTypes other := by
  rw [sameTypes, Bool.and_eq_true, beq_iff_eq, List.all_eq_true]
  refine ⟨same.length_eq, fun entry member => ?_⟩
  rw [find?, ← lookup_eq_of_perm distinct same, (lookup_eq_some_iff_mem distinct).mpr member]
  exact beq_self_eq_true _

end Lists

/-- What a registry shows that some attempts on the empty one have led to. -/
structure Keeps (attempts : List Layout) (registry : Registry) : Prop where
  /-- Every key is the name of the layout under it. -/
  keyed : ∀ entry ∈ registry.types, entry.1 = entry.2.name
  /-- No two names are the same. -/
  distinct : registry.names.Nodup
  /-- Every layout passes validation, and so has distinct names and few enough variants. -/
  valid : ∀ layout ∈ registry.layouts, layout.validate = .ok () ∧ layout.WellFormed
  /-- The layouts are the registered ones, in the order of registration. -/
  order : registry.layouts = accepted attempts empty
  /-- A name leads to the layout that was registered under it. -/
  get_iff : ∀ name layout,
    registry.get name = .ok layout ↔ layout ∈ accepted attempts empty ∧ layout.name = name
  /-- A further layout is refused exactly if it is invalid or its name is taken. -/
  refused_iff : ∀ layout,
    (∃ error, ((register layout).perform registry).1 = .error error) ↔
      layout.validate ≠ .ok () ∨ layout.name ∈ registry.names
  /-- A refused layout leaves the registry as it was. -/
  unchanged : ∀ layout error, ((register layout).perform registry).1 = .error error →
    ((register layout).perform registry).2 = registry

/-- A session on the empty registry keeps what is asked of it. -/
theorem keeps_finish (attempts : List Layout) : Keeps attempts (finish attempts empty) := by
  have sound : (finish attempts empty).Sound := (Reachable.empty.finish attempts).sound
  refine ⟨sound.keyed, sound.nodup_names, ?valid, layouts_finish attempts, ?get_iff, ?refused_iff,
    ?unchanged⟩
  case valid =>
    intro layout member
    obtain ⟨entry, stored, rfl⟩ := List.mem_map.mp member
    exact ⟨sound.valid entry stored, Layout.validate_eq_ok_iff.mp (sound.valid entry stored)⟩
  case get_iff =>
    intro name layout
    rw [sound.get_eq_ok_iff, layouts_finish]
  case refused_iff => exact fun layout => (registers_perform _ layout).refused_iff sound
  case unchanged =>
    intro layout error failed
    have registers := registers_perform (finish attempts empty) layout
    rw [failed] at registers
    exact registers.unchanged

/-- At every moment of every session that starts empty the registry keeps what is asked of it;
so does every registry of a list and every registry of a text, whose layouts were all
registered. -/
theorem keeps_run :
    Keeps [] empty ∧
      (∀ attempts moment,
        (run attempts empty)[moment]? =
          attempts[moment]?.map fun layout =>
            (register layout).perform (finish (attempts.take moment) empty)) ∧
      (∀ attempts moment outcome after,
        (run attempts empty)[moment]? = some (outcome, after) →
          Keeps (attempts.take (moment + 1)) after) ∧
      (∀ layouts registry, ofLayouts layouts = .ok registry →
        Keeps layouts registry ∧ accepted layouts empty = layouts) ∧
      ∀ text registry, ofText text = .ok registry →
        ∃ layouts, layoutsOfText text = .ok layouts ∧ Keeps layouts registry ∧
          accepted layouts empty = layouts := by
  have listed : ∀ layouts registry, ofLayouts layouts = .ok registry →
      Keeps layouts registry ∧ accepted layouts empty = layouts := by
    intro layouts registry held
    obtain ⟨all, rfl⟩ := ofLayouts_eq_ok_iff.mp held
    exact ⟨keeps_finish layouts, all⟩
  refine ⟨keeps_finish [], fun attempts moment => getElem?_run attempts moment empty, ?_, listed, ?_⟩
  · intro attempts moment outcome after shown
    rw [eq_finish_of_getElem?_run shown]
    exact keeps_finish _
  · intro text registry loaded
    obtain ⟨layouts, described, held⟩ := ofText_eq_ok_iff.mp loaded
    exact ⟨layouts, described, listed layouts registry held⟩

/-- A session with a layout whose fields repeat a name and one whose own name is taken. -/
def contested : List Layout :=
  [.struct ⟨"Tick", [⟨"price", .u64⟩]⟩, .struct ⟨"Pair", [⟨"side", .u8⟩, ⟨"side", .u8⟩]⟩,
    .enum ⟨"Tick", []⟩, .enum ⟨"Side", [⟨"Buy", none⟩, ⟨"Sell", some []⟩]⟩]

/-- Of four layouts a faulty one and one whose name is taken are refused; two are kept. -/
theorem keeps_run_contested :
    accepted contested empty =
        [.struct ⟨"Tick", [⟨"price", .u64⟩]⟩,
          .enum ⟨"Side", [⟨"Buy", none⟩, ⟨"Sell", some []⟩]⟩] ∧
      ∃ after, (run contested empty)[3]? = some (.ok (), after) ∧ Keeps contested after :=
  ⟨rfl, _, rfl, keeps_run.2.2.1 contested 3 _ _ rfl⟩

end FixedLayout.Registry
