import FixedLayout.Json.Basic

/-!
# Members under distinct keys

Where the keys of members are distinct, looking a key up is membership, a member with a
new key is put at the end, and settling changes nothing.
-/

namespace FixedLayout

variable {Value : Type} {members : List (String × Value)} {key : String} {value : Value}

/-- What is looked up is a member. -/
theorem mem_of_lookup_eq_some (found : members.lookup key = some value) :
    (key, value) ∈ members := by
  obtain ⟨earlier, later, rfl, _⟩ := List.lookup_eq_some_iff.mp found
  exact List.mem_append_right _ List.mem_cons_self

/-- Under distinct keys, what is looked up is exactly a member. -/
theorem lookup_eq_some_iff_mem (distinct : (members.map Prod.fst).Nodup) :
    members.lookup key = some value ↔ (key, value) ∈ members := by
  constructor
  · exact mem_of_lookup_eq_some
  · intro member
    obtain ⟨earlier, later, rfl⟩ := List.append_of_mem member
    refine List.lookup_eq_some_iff.mpr ⟨earlier, later, rfl, fun other before => ?_⟩
    rw [List.map_append, List.nodup_append] at distinct
    have apart := distinct.2.2 _ (List.mem_map_of_mem before) key (by simp)
    simpa [bne_iff_ne] using Ne.symm apart

/-- Under distinct keys, the order of the members does not matter to a search. -/
theorem lookup_eq_of_perm {others : List (String × Value)}
    (distinct : (members.map Prod.fst).Nodup) (same : members.Perm others) :
    members.lookup key = others.lookup key := by
  have otherDistinct : (others.map Prod.fst).Nodup := (same.map Prod.fst).nodup_iff.mp distinct
  refine Option.ext fun value => ?_
  rw [lookup_eq_some_iff_mem distinct, lookup_eq_some_iff_mem otherDistinct, same.mem_iff]

/-- A key is found when it is the key of a member. -/
theorem isSome_lookup_iff : (members.lookup key).isSome ↔ key ∈ members.map Prod.fst := by
  rw [List.lookup_isSome_iff, List.mem_map]
  refine exists_congr fun member => and_congr_right fun _ => ?_
  rw [beq_iff_eq, eq_comm]

/-- What is made of every value is found under the key of the value. -/
theorem lookup_map_value {Other : Type} (make : Value → Other) (members : List (String × Value))
    (key : String) :
    (members.map fun member => (member.1, make member.2)).lookup key =
      (members.lookup key).map make := by
  induction members with
  | nil => rfl
  | cons member members inductionHypothesis =>
      rw [List.map_cons, List.lookup_cons, List.lookup_cons]
      cases key == member.1 with
      | true => rfl
      | false => exact inductionHypothesis

namespace Json

/-- A member with a new key is put behind the others. -/
theorem putMember_of_not_mem (fresh : key ∉ members.map Prod.fst) :
    putMember key value members = members ++ [(key, value)] := by
  induction members with
  | nil => rfl
  | cons member members inductionHypothesis =>
      rw [List.map_cons, List.mem_cons, not_or] at fresh
      rw [putMember, if_neg (Ne.symm fresh.1), inductionHypothesis fresh.2, List.cons_append]

/-- Members with distinct keys are settled. -/
theorem settleMembers_of_nodup (distinct : (members.map Prod.fst).Nodup) :
    settleMembers members = members := by
  -- The members behind those that are already settled.
  suffices behind : ∀ settled, ((settled ++ members).map Prod.fst).Nodup →
      members.foldl (fun settled member => putMember member.1 member.2 settled) settled =
        settled ++ members from behind [] distinct
  clear distinct
  induction members with
  | nil => exact fun settled _ => (List.append_nil settled).symm
  | cons member members inductionHypothesis =>
      intro settled distinct
      have fresh : member.1 ∉ settled.map Prod.fst := by
        intro known
        rw [List.map_append, List.nodup_append] at distinct
        exact distinct.2.2 _ known member.1 (by simp) rfl
      have shifted : settled ++ member :: members = settled ++ [member] ++ members := by simp
      rw [shifted] at distinct ⊢
      rw [List.foldl_cons, putMember_of_not_mem fresh]
      exact inductionHypothesis _ distinct

/-- An object of settled values under distinct keys is settled. -/
theorem settle_object {members : List (String × Json)}
    (values : ∀ member ∈ members, member.2.settle = member.2)
    (distinct : (members.map Prod.fst).Nodup) : (object members).settle = object members := by
  have each : settleValues members = members := by
    clear distinct
    induction members with
    | nil => rw [settleValues]
    | cons member members inductionHypothesis =>
        obtain ⟨first, others⟩ := List.forall_mem_cons.mp values
        rw [settleValues, first, inductionHypothesis others]
  rw [settle, each, settleMembers_of_nodup distinct]

/-- An array of settled elements is settled. -/
theorem settle_array {elements : List Json}
    (each : ∀ element ∈ elements, element.settle = element) :
    (array elements).settle = array elements := by
  have settled : settleElements elements = elements := by
    induction elements with
    | nil => rw [settleElements]
    | cons element elements inductionHypothesis =>
        obtain ⟨first, others⟩ := List.forall_mem_cons.mp each
        rw [settleElements, first, inductionHypothesis others]
  rw [settle, settled]

end Json

end FixedLayout
