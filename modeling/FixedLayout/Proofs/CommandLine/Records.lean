import FixedLayout.Proofs.CommandLine.Commands
import FixedLayout.Proofs.Codec.RoundTrip
import FixedLayout.Proofs.Value.Restoring

/-!
# All records of some data

The command line decodes all records in a loop. `turn` is one turn of it and leaves the
loop on every failure; that it ends at all is owed to the turn refusing a record without
bytes. `loop_eq_decodeRecords` identifies the loop with the recursion over the bytes
left, and `settles_iff` says without either what it answers: the values whose encodings
the data is, one behind the other, or the cause for which it is not such a packing. The
answer itself is a text; `TellsAll` says which values can be read from it.
-/

namespace FixedLayout.CommandLine

section Loop

/-- The loop between two turns: the values found and the bytes behind them. -/
structure Progress where
  found : List Value
  rest : List UInt8

/-- One turn of the loop: its outcome if the turn leaves it, or else its progress by one more
record. -/
def turn (layout : Layout) (type : String) (progress : Progress) :
    Except (Outcome (List Value)) Progress :=
  match layout.decode progress.rest with
  | .error error => .error (.error (.layout error))
  | .ok (value, next) =>
      if next.length = progress.rest.length then .error (.error (.zeroWidth type))
      else if next.isEmpty then .error (.ok (progress.found ++ [value]))
      else .ok ⟨progress.found ++ [value], next⟩

/-- The outcome of the loop, if it is left within so many turns. -/
def loop (layout : Layout) (type : String) : Nat → Progress → Option (Outcome (List Value))
  | 0, _ => none
  | turns + 1, progress =>
      match turn layout type progress with
      | .error outcome => some outcome
      | .ok next => loop layout type turns next

/-- Decoding never leaves more bytes than there were. -/
theorem length_le_of_decode {layout : Layout} {data rest : List UInt8} {value : Value}
    (decoded : layout.decode data = .ok (value, rest)) : rest.length ≤ data.length :=
  (Layout.verdict_of_decode_eq decoded).rest_suffix.length_le

/-- Once there is a turn for each byte, the loop is left, with the values found before and
those of the bytes left. -/
theorem loop_eq_decodeRecords {layout : Layout} {data : List UInt8} {turns : Nat}
    (enough : max 1 data.length ≤ turns) (found : List Value) :
    loop layout layout.name turns ⟨found, data⟩ =
      some ((decodeRecords layout data).map fun values => found ++ values) := by
  induction turns generalizing data found with
  | zero => omega
  | succ turns inductionHypothesis =>
      rw [loop, turn, decodeRecords]
      rcases decoded : layout.decode data with error | ⟨value, rest⟩
      · rfl
      · have shorter := length_le_of_decode decoded
        by_cases less : rest.length < data.length
        · have moved : rest.length ≠ data.length := Nat.ne_of_lt less
          simp only [dif_pos less, if_neg moved]
          by_cases finished : rest.isEmpty
          · simp only [if_pos finished]
            rfl
          · have left : 0 < rest.length := by
              rw [List.length_pos_iff]
              exact fun same => finished (List.isEmpty_iff.mpr same)
            simp only [if_neg finished]
            rw [inductionHypothesis (by omega)]
            cases decodeRecords layout rest <;>
              simp [Except.map, bind, Except.bind, pure, Except.pure]
        · have still : rest.length = data.length := by omega
          simp only [dif_neg less, if_pos still]
          rfl

end Loop

/-- Data is packed of values: the encodings of ordered values, none of them without bytes, one
behind the other. -/
inductive Packs (layout : Layout) : List Value → List UInt8 → Prop where
  | nil : Packs layout [] []
  | cons {value values bytes data} (ordered : layout.Ordered value)
      (accepted : layout.encode value = .ok bytes) (wide : bytes ≠ [])
      (others : Packs layout values data) : Packs layout (value :: values) (bytes ++ data)

/-- The cause for which no record is taken off the front of some data: decoding refuses it, or
a value without bytes would stand there. -/
inductive Stops (layout : Layout) : List UInt8 → Failure → Prop where
  | refused {data error} (refused : layout.Verdict data (.error error)) :
      Stops layout data (.layout error)
  | zeroWidth {data value} (ordered : layout.Ordered value)
      (bare : layout.encode value = .ok []) : Stops layout data (.zeroWidth layout.name)

/-- What decoding all records of some data has to answer. Behind the last record the loop is
left, so the end of the data stops it only in front of the first one. -/
inductive Settles (layout : Layout) : List UInt8 → Outcome (List Value) → Prop where
  | packed {values data} (some : values ≠ []) (packs : Packs layout values data) :
      Settles layout data (.ok values)
  | stopped {found consumed rest failure} (packs : Packs layout found consumed)
      (more : found ≠ [] → rest ≠ []) (stops : Stops layout rest failure) :
      Settles layout (consumed ++ rest) (.error failure)

section Records

variable {layout : Layout} {value : Value} {bytes rest : List UInt8}

/-- There are no bytes of no values, and no values of no bytes. -/
theorem Packs.eq_nil_iff {values : List Value} {data : List UInt8}
    (packs : Packs layout values data) : values = [] ↔ data = [] := by
  cases packs with
  | nil => simp
  | cons ordered accepted wide others => simp [wide]

/-- A record with bytes is taken off the front, and the loop is left behind the last one. -/
theorem decodeRecords_append (wellFormed : layout.WellFormed) (ordered : layout.Ordered value)
    (accepted : layout.encode value = .ok bytes) (wide : bytes ≠ []) (rest : List UInt8) :
    decodeRecords layout (bytes ++ rest) =
      if rest = [] then .ok [value]
      else (decodeRecords layout rest).map fun values => value :: values := by
  have less : rest.length < (bytes ++ rest).length := by
    have := List.length_pos_iff.mpr wide
    rw [List.length_append]
    omega
  rw [decodeRecords, wellFormed.decode_append ordered accepted rest]
  simp only [dif_pos less, List.isEmpty_iff]
  by_cases finished : rest = []
  · rw [if_pos finished, if_pos finished]
  · rw [if_neg finished, if_neg finished]
    cases decodeRecords layout rest <;> rfl

/-- What stops a record from being taken off stops all records behind it. -/
theorem Stops.decodeRecords_eq {failure : Failure} (wellFormed : layout.WellFormed)
    (stops : Stops layout rest failure) : decodeRecords layout rest = .error failure := by
  rw [decodeRecords]
  cases stops with
  | refused refused => rw [refused.decode_eq]
  | zeroWidth ordered bare =>
      have decoded := wellFormed.decode_append ordered bare rest
      rw [List.nil_append] at decoded
      rw [decoded]
      exact dif_neg (Nat.lt_irrefl _)

/-- Decoding all records answers as specified. -/
theorem Settles.decodeRecords_eq {data : List UInt8} {outcome : Outcome (List Value)}
    (wellFormed : layout.WellFormed) (settles : Settles layout data outcome) :
    decodeRecords layout data = outcome := by
  cases settles with
  | packed some packs =>
      induction packs with
      | nil => exact absurd rfl some
      | @cons _ _ _ data ordered accepted wide others inductionHypothesis =>
          rw [decodeRecords_append wellFormed ordered accepted wide]
          by_cases finished : data = []
          · rw [if_pos finished, others.eq_nil_iff.mpr finished]
          · rw [if_neg finished, inductionHypothesis (mt others.eq_nil_iff.mp finished)]
            rfl
  | @stopped found consumed rest failure packs more stops =>
      induction packs with
      | nil => exact stops.decodeRecords_eq wellFormed
      | cons ordered accepted wide others inductionHypothesis =>
          have left : rest ≠ [] := more (List.cons_ne_nil _ _)
          rw [List.append_assoc, decodeRecords_append wellFormed ordered accepted wide,
            if_neg (by simp [left]), inductionHypothesis fun _ => left]
          rfl

/-- One more record in front of data that is not empty is one more value. -/
theorem Settles.cons {data : List UInt8} {outcome : Outcome (List Value)}
    (ordered : layout.Ordered value) (accepted : layout.encode value = .ok bytes)
    (wide : bytes ≠ []) (more : data ≠ []) (settles : Settles layout data outcome) :
    Settles layout (bytes ++ data) (outcome.map fun values => value :: values) := by
  cases settles with
  | packed some packs =>
      exact .packed (List.cons_ne_nil _ _) (.cons ordered accepted wide packs)
  | @stopped found consumed rest failure packs others stops =>
      rw [← List.append_assoc]
      refine .stopped (.cons ordered accepted wide packs) (fun _ ended => ?_) stops
      subst ended
      rw [List.append_nil] at more
      exact others (mt packs.eq_nil_iff.mp more) rfl

/-- There is an outcome for all data. -/
theorem exists_settles (wellFormed : layout.WellFormed) (data : List UInt8) :
    ∃ outcome, Settles layout data outcome := by
  rcases decoded : layout.decode data with error | ⟨value, rest⟩
  · have verdict := Layout.verdict_of_decode_eq decoded
    exact ⟨_, .stopped .nil (fun some => absurd rfl some) (.refused verdict)⟩
  · obtain ⟨ordered, bytes, specified, rfl⟩ :=
      (Layout.verdict_of_decode_eq decoded).restore wellFormed
    have accepted := specified.encode_eq
    by_cases bare : bytes = []
    · subst bare
      exact ⟨_, .stopped .nil (fun some => absurd rfl some) (.zeroWidth ordered accepted)⟩
    · by_cases finished : rest = []
      · subst finished
        exact ⟨_, .packed (List.cons_ne_nil _ _) (.cons ordered accepted bare .nil)⟩
      · have less : rest.length < (bytes ++ rest).length := by
          have := List.length_pos_iff.mpr bare
          rw [List.length_append]
          omega
        obtain ⟨outcome, settles⟩ := exists_settles wellFormed rest
        exact ⟨_, settles.cons ordered accepted bare finished⟩
termination_by data.length

/-- Decoding all records answers exactly what is specified. -/
theorem settles_iff {data : List UInt8} {outcome : Outcome (List Value)}
    (wellFormed : layout.WellFormed) :
    Settles layout data outcome ↔ decodeRecords layout data = outcome := by
  constructor
  · exact fun settles => settles.decodeRecords_eq wellFormed
  · rintro rfl
    obtain ⟨outcome, settles⟩ := exists_settles wellFormed data
    rw [settles.decodeRecords_eq wellFormed]
    exact settles

/-- Values are the outcome exactly if there is at least one and the data is packed of them. -/
theorem settles_ok_iff {values : List Value} {data : List UInt8} :
    Settles layout data (.ok values) ↔ values ≠ [] ∧ Packs layout values data := by
  constructor
  · rintro (⟨some, packs⟩ | _)
    exact ⟨some, packs⟩
  · rintro ⟨some, packs⟩
    exact .packed some packs

/-- A failure is the outcome exactly if it stops a record, the first one or one behind others. -/
theorem settles_error_iff {failure : Failure} {data : List UInt8} :
    Settles layout data (.error failure) ↔
      ∃ found consumed rest, Packs layout found consumed ∧ consumed ++ rest = data ∧
        (found ≠ [] → rest ≠ []) ∧ Stops layout rest failure := by
  constructor
  · rintro (_ | ⟨packs, more, stops⟩)
    exact ⟨_, _, _, packs, rfl, more, stops⟩
  · rintro ⟨found, consumed, rest, packs, rfl, more, stops⟩
    exact .stopped packs more stops

/-- Data is packed of one list of values only. -/
theorem Packs.unique {values others : List Value} {data : List UInt8}
    (wellFormed : layout.WellFormed) (packs : Packs layout values data)
    (again : Packs layout others data) : values = others := by
  by_cases none : values = []
  · rw [none, again.eq_nil_iff.mpr (packs.eq_nil_iff.mp none)]
  · have some : others ≠ [] :=
      mt again.eq_nil_iff.mp (mt packs.eq_nil_iff.mpr none)
    have first := (Settles.packed none packs).decodeRecords_eq wellFormed
    rw [(Settles.packed some again).decodeRecords_eq wellFormed] at first
    exact (Except.ok.inj first).symm

end Records

/-- A tree tells a value of a layout: it depicts the value, which is read back from it. -/
structure Tells (layout : Layout) (value : Value) (tree : Json) : Prop where
  depicted : value.Depicted tree
  restored : Value.ofTree layout tree = .ok value

/-- A text tells some values: it is read as an array with a tree for each of them, in order. -/
def TellsAll (layout : Layout) (values : List Value) (text : String) : Prop :=
  ∃ trees, ReadsAs text (.array trees) ∧ List.Forall₂ (Tells layout) values trees

section Told

variable {layout : Layout} {values : List Value}

/-- The values that data is packed of show the layout. -/
theorem Packs.shows {data : List UInt8} (wellFormed : layout.WellFormed)
    (packs : Packs layout values data) : ∀ value ∈ values, layout.Shows value := by
  induction packs with
  | nil => exact List.forall_mem_nil _
  | cons ordered accepted wide others inductionHypothesis =>
      have first := wellFormed.shows_of_ordered accepted ordered
      exact List.forall_mem_cons.mpr ⟨first, inductionHypothesis⟩

/-- The printed array of the trees of some values tells the values. -/
theorem tellsAll_pretty (wellFormed : layout.WellFormed)
    (shown : ∀ value ∈ values, layout.Shows value) :
    TellsAll layout values (Json.array (values.map Value.toTree)).pretty := by
  have distinct : ∀ value ∈ values, value.Distinct :=
    fun value member => (shown value member).distinct wellFormed
  have plain : (Json.array (values.map Value.toTree)).Plain (126 + 1) :=
    .array (List.forall_mem_map.mpr fun value member => (distinct value member).plain_toTree)
  have settled := Json.settle_array
    (List.forall_mem_map.mpr fun value member => (distinct value member).settle_toTree)
  refine ⟨values.map Value.toTree, readsAs_print plain settled (.indented 0), ?each⟩
  case each =>
    exact forall₂_map fun value member =>
      ⟨(distinct value member).depicted_toTree, (shown value member).ofTree_toTree wellFormed⟩

/-- A text tells one list of values only. -/
theorem TellsAll.unique {others : List Value} {text : String} (told : TellsAll layout values text)
    (again : TellsAll layout others text) : values = others := by
  obtain ⟨trees, read, each⟩ := told
  obtain ⟨_, reread, other⟩ := again
  cases read.unique reread
  have one : Relator.LeftUnique (Tells layout) :=
    fun _ _ _ first second => Except.ok.inj (first.restored.symm.trans second.restored)
  exact List.left_unique_forall₂' one each other

/-- The printed array of the values that data is packed of tells no other values. -/
theorem Packs.tellsAll_iff {packed : List Value} {data : List UInt8}
    (wellFormed : layout.WellFormed) (packs : Packs layout packed data) :
    TellsAll layout values (Json.array (packed.map Value.toTree)).pretty ↔
      Packs layout values data := by
  have told := tellsAll_pretty wellFormed (packs.shows wellFormed)
  constructor
  · intro also
    rwa [also.unique told]
  · intro also
    rwa [also.unique wellFormed packs]

end Told

/-- What the command that decodes all records of a type answers on the text of some data. -/
structure DecodesPackings (registry : Registry) (type : String) (layout : Layout) (text : String)
    (data : List UInt8) : Prop where
  /-- The loop is left after a turn for each byte at most, and its outcome is the answer. -/
  ends : ∃ outcome,
    (∀ turns, max 1 data.length ≤ turns → loop layout type turns ⟨[], data⟩ = some outcome) ∧
      run registry (.decode type text true) =
        outcome.map fun values => (Json.array (values.map Value.toTree)).pretty
  /-- Exactly the packings of one value or more are accepted, and the trees of the values are the
  answer. -/
  accepted_iff : ∀ answer, run registry (.decode type text true) = .ok answer ↔
    ∃ values, values ≠ [] ∧ Packs layout values data ∧
      answer = (Json.array (values.map Value.toTree)).pretty
  /-- An answer tells the values that the data is packed of, and no others. -/
  told : ∀ answer, run registry (.decode type text true) = .ok answer →
    ∀ values, TellsAll layout values answer ↔ Packs layout values data
  /-- The data is packed of no other values. -/
  unique : ∀ values others, Packs layout values data → Packs layout others data → values = others
  /-- All other data is refused as a whole. -/
  refused_iff : (∃ failure, run registry (.decode type text true) = .error failure) ↔
    ¬ ∃ values, values ≠ [] ∧ Packs layout values data
  /-- The cause is what stops the first record that cannot be taken off, wherever it is. -/
  cause_iff : ∀ failure, run registry (.decode type text true) = .error failure ↔
    ∃ found consumed rest, Packs layout found consumed ∧ consumed ++ rest = data ∧
      (found ≠ [] → rest ≠ []) ∧ Stops layout rest failure

/-- Under a registered type the command that decodes all records accepts exactly the packings. -/
theorem decodesPackings_of_get {registry : Registry} (reachable : registry.Reachable)
    {type text : String} {layout : Layout} {data : List UInt8}
    (known : registry.get type = .ok layout)
    (read : Base64.decode (Text.trim text.toList) = some data) :
    DecodesPackings registry type layout text data := by
  obtain ⟨wellFormed, named⟩ := wellFormed_of_get reachable known
  have answered := run_decodeAll known read
  have accepted_iff : ∀ answer, run registry (.decode type text true) = .ok answer ↔
      ∃ values, values ≠ [] ∧ Packs layout values data ∧
        answer = (Json.array (values.map Value.toTree)).pretty := by
    intro answer
    rw [answered, map_eq_ok_iff]
    refine exists_congr fun values => ?_
    rw [← settles_iff wellFormed, settles_ok_iff, and_assoc, eq_comm (b := answer)]
  refine ⟨?ends, accepted_iff, ?told, fun _ _ => Packs.unique wellFormed, ?refused_iff, ?cause_iff⟩
  case ends =>
    refine ⟨decodeRecords layout data, fun turns enough => ?_, answered⟩
    rw [← named, loop_eq_decodeRecords enough]
    cases decodeRecords layout data <;> rfl
  case told =>
    intro answer decoded values
    obtain ⟨packed, _, packs, rfl⟩ := (accepted_iff answer).mp decoded
    exact packs.tellsAll_iff wellFormed
  case refused_iff =>
    constructor
    · rintro ⟨failure, failed⟩ ⟨values, some, packs⟩
      rw [(accepted_iff _).mpr ⟨values, some, packs, rfl⟩] at failed
      cases failed
    · intro impossible
      rcases outcome : run registry (.decode type text true) with failure | answer
      · exact ⟨failure, rfl⟩
      · obtain ⟨values, some, packs, _⟩ := (accepted_iff answer).mp outcome
        exact absurd ⟨values, some, packs⟩ impossible
  case cause_iff =>
    intro failure
    rw [answered, map_eq_error_iff, ← settles_iff wellFormed, settles_error_iff]

/-- Two zeros are two greetings, each without a payload, and the answer is the array of both. -/
theorem decodesPackings_of_get_bundled :
    DecodesPackings bundled "TestProgramInstruction" (.enum TestProgram.Instruction.declared)
        "AAA=\n" [0, 0] ∧
      Packs (.enum TestProgram.Instruction.declared)
        [.enum "HelloWorld" none, .enum "HelloWorld" none] [0, 0] ∧
      ∃ answer, run bundled (.decode "TestProgramInstruction" "AAA=\n" true) = .ok answer ∧
        ReadsAs answer (.array
          [.object [("variant", .string "HelloWorld")],
            .object [("variant", .string "HelloWorld")]]) := by
  have decodes : DecodesPackings bundled "TestProgramInstruction"
      (.enum TestProgram.Instruction.declared) "AAA=\n" [0, 0] :=
    decodesPackings_of_get (Registry.Reachable.empty.finish _) rfl (by rfl)
  have ordered : (Layout.enum TestProgram.Instruction.declared).Ordered
      (.enum "HelloWorld" none) := ⟨⟨"HelloWorld", none⟩, by decide, rfl, rfl⟩
  have packs : Packs (.enum TestProgram.Instruction.declared)
      [.enum "HelloWorld" none, .enum "HelloWorld" none] [0, 0] :=
    .cons ordered rfl (List.cons_ne_nil 0 []) (.cons ordered rfl (List.cons_ne_nil 0 []) .nil)
  have answered := (decodes.accepted_iff _).mpr ⟨_, List.cons_ne_nil _ _, packs, rfl⟩
  obtain ⟨trees, read, each⟩ := (decodes.told _ answered _).mpr packs
  obtain _ | ⟨first, _ | ⟨second, _ | _⟩⟩ := each
  cases first.depicted
  cases second.depicted
  exact ⟨decodes, packs, _, answered, read⟩

end FixedLayout.CommandLine
