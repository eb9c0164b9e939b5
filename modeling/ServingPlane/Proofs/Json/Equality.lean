import ServingPlane.Json.Value

/-! # Equality of values

    The comparison of values decides their equality: values are alike
    exactly when they have the same shape and the same leaves, items and
    members in order. -/

namespace ServingPlane.Json

mutual

private theorem beq_refl : ∀ v : Json, beq v v = true
  | null => rfl
  | bool b => BEq.rfl (a := b)
  | number n => BEq.rfl (a := n)
  | string s => BEq.rfl (a := s)
  | array items => beqItems_refl items
  | object members => beqMembers_refl members

private theorem beqItems_refl : ∀ items : List Json, beqItems items items = true
  | [] => rfl
  | v :: rest => by
    show (beq v v && beqItems rest rest) = true
    rw [beq_refl v, beqItems_refl rest]
    rfl

private theorem beqMembers_refl :
    ∀ members : List (String × Json), beqMembers members members = true
  | [] => rfl
  | (key, v) :: rest => by
    show (key == key && beq v v && beqMembers rest rest) = true
    rw [beq_self_eq_true, beq_refl v, beqMembers_refl rest]
    rfl

end

mutual

private theorem eq_of_beq : ∀ {v w : Json}, beq v w = true → v = w
  | null, null, _ => rfl
  | bool _, bool _, h => congrArg bool (LawfulBEq.eq_of_beq h)
  | number _, number _, h => congrArg number (LawfulBEq.eq_of_beq h)
  | string _, string _, h => congrArg string (LawfulBEq.eq_of_beq h)
  | array _, array _, h => congrArg array (eq_of_beqItems h)
  | object _, object _, h => congrArg object (eq_of_beqMembers h)

private theorem eq_of_beqItems :
    ∀ {items others : List Json}, beqItems items others = true → items = others
  | [], [], _ => rfl
  | v :: rest, w :: others, h => by
    obtain ⟨hv, hrest⟩ := Bool.and_eq_true_iff.mp h
    rw [eq_of_beq hv, eq_of_beqItems hrest]

private theorem eq_of_beqMembers :
    ∀ {members others : List (String × Json)}, beqMembers members others = true → members = others
  | [], [], _ => rfl
  | (key, v) :: rest, (other, w) :: others, h => by
    obtain ⟨hhead, hrest⟩ := Bool.and_eq_true_iff.mp h
    obtain ⟨hkey, hv⟩ := Bool.and_eq_true_iff.mp hhead
    rw [LawfulBEq.eq_of_beq hkey, eq_of_beq hv, eq_of_beqMembers hrest]

end

instance : LawfulBEq Json where
  eq_of_beq := eq_of_beq
  rfl := beq_refl _

instance : DecidableEq Json := instDecidableEqOfLawfulBEq

end ServingPlane.Json
