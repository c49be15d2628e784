import Preopt.Proofs.Json.Tokens
import Preopt.Yaml.Stream

/-! The document that the tokens of a portable text make up. It has no anchors, tags or aliases. -/

namespace Preopt.Json

open Yaml

section Spec

variable {α : Type}

def itemNode (s : String) : Node α := .scalar {} .doubleQuoted s

def valueNode : Value → Node α
  | .flag v => .scalar {} .plain (String.ofList (flagText v))
  | .list items => .sequence {} (items.map itemNode)

def memberNode (m : String × Value) : Node α × Node α := (itemNode m.1, valueNode m.2)

def textNode (members : List (String × Value)) : Node α := .mapping {} (members.map memberNode)

end Spec

theorem separated_items (s : String) (items : List String) :
    ∃ tail, separated itemTokens (s :: items) = .scalar .doubleQuoted s :: tail := by
  cases items <;> exact ⟨_, rfl⟩

theorem separated_members (m : String × Value) (members : List (String × Value)) :
    ∃ tail, separated memberTokens (m :: members) = .key :: tail := by
  cases members <;> exact ⟨_, rfl⟩

namespace Parse

open Yaml.Parse

variable (g : Grammar) (handles : List (String × String)) {fuel : Nat} {rest : List Token}

theorem node_scalar (style : Style) (text : String) :
    node g handles (fuel + 1) false false (.scalar style text :: rest) =
      .ok (.scalar {} style text, rest) := rfl

theorem node_flowSequence {items : List (Node String)} {ts : List Token}
    (h : flowItems g handles fuel true ts = .ok (items, rest)) :
    node g handles (fuel + 1) false false (.flowSequence :: ts) =
      .ok (.sequence {} items, rest) := by
  rw [node]
  · simp only [properties, bind, Except.bind, h]
    rfl
  · simp

theorem node_flowMapping {entries : List (Node String × Node String)} {ts : List Token}
    (h : flowEntries g handles fuel true ts = .ok (entries, rest)) :
    node g handles (fuel + 1) true false (.flowMapping :: ts) =
      .ok (.mapping {} entries, rest) := by
  rw [node]
  · simp only [properties, bind, Except.bind, h]
    rfl
  · simp

theorem flowItem_scalar {style : Style} {text : String} {items : List (Node String)}
    {ts : List Token} (h : flowItems g handles (fuel + 1) false ts = .ok (items, rest)) :
    flowItem g handles (fuel + 2) (.scalar style text :: ts) =
      .ok (.scalar {} style text :: items, rest) := by
  rw [flowItem]
  · simp only [node_scalar, bind, Except.bind, h]
    rfl
  · simp

theorem flowItems_next {t : Token} {items : List (Node String)} {ts : List Token}
    (ht : t ≠ .flowSequenceEnd) (h : flowItem g handles fuel (t :: ts) = .ok (items, rest)) :
    flowItems g handles (fuel + 1) false (.flowEntry :: t :: ts) = .ok (items, rest) := by
  rw [flowItems]
  · exact h
  · rintro ts' heq
    exact ht (List.cons.inj heq).1

theorem flowItem_items (fuel : Nat) (rest : List Token) (s : String) (items : List String)
    (hfuel : (separated itemTokens (s :: items)).length < fuel) :
    flowItem g handles fuel (separated itemTokens (s :: items) ++ .flowSequenceEnd :: rest) =
      .ok ((s :: items).map itemNode, rest) := by
  induction items generalizing s fuel with
  | nil =>
    obtain ⟨fuel, rfl⟩ := Nat.exists_eq_add_of_le' hfuel
    rfl
  | cons t items ih =>
    rw [separated_cons itemTokens s (List.cons_ne_nil t items)] at hfuel ⊢
    rw [List.length_append, List.length_cons] at hfuel
    obtain ⟨fuel, rfl⟩ := Nat.exists_eq_add_of_le' (show 2 ≤ fuel by omega)
    have hlen : (itemTokens s).length = 1 := rfl
    have hrest := ih fuel t (by omega)
    obtain ⟨tail, htail⟩ := separated_items t items
    rw [htail] at hrest ⊢
    exact flowItem_scalar g handles (flowItems_next g handles (by simp) hrest)

theorem node_value (v : Value) (hfuel : (valueTokens v).length < fuel) :
    node g handles fuel false false (valueTokens v ++ rest) = .ok (valueNode v, rest) := by
  cases v with
  | flag v =>
    obtain ⟨fuel, rfl⟩ := Nat.exists_eq_add_of_le' (show 1 ≤ fuel by omega)
    exact node_scalar g handles .plain _
  | list items =>
    rw [valueTokens] at hfuel ⊢
    rw [List.length_append, List.length_cons, List.length_singleton] at hfuel
    rw [List.append_assoc, List.cons_append]
    obtain ⟨fuel, rfl⟩ := Nat.exists_eq_add_of_le' (show 2 ≤ fuel by omega)
    refine node_flowSequence g handles ?_
    cases items with
    | nil => rfl
    | cons s items =>
      have hitems := flowItem_items g handles fuel rest s items (by omega)
      obtain ⟨tail, htail⟩ := separated_items s items
      rw [htail] at hitems ⊢
      exact hitems

theorem flowPair_key {k : String} {value : Node String} {ts ts' : List Token}
    {entries : List (Node String × Node String)} (hts : endsFlowNode ts = false)
    (hvalue : node g handles (fuel + 1) false false ts = .ok (value, ts'))
    (h : flowEntries g handles (fuel + 1) false ts' = .ok (entries, rest)) :
    flowPair g handles (fuel + 2) (.key :: .scalar .doubleQuoted k :: .value :: ts) =
      .ok ((itemNode k, value) :: entries, rest) := by
  have hkey : endsFlowNode (.scalar .doubleQuoted k :: .value :: ts) = false := rfl
  rw [flowPair]
  simp only [hkey, node_scalar, bind, Except.bind, pure, Except.pure, Bool.false_eq_true,
    if_false, hts, hvalue, h]
  · rfl
  · simp

theorem flowEntries_next {t : Token} {entries : List (Node String × Node String)} {ts : List Token}
    (ht : t ≠ .flowMappingEnd) (h : flowPair g handles fuel (t :: ts) = .ok (entries, rest)) :
    flowEntries g handles (fuel + 1) false (.flowEntry :: t :: ts) = .ok (entries, rest) := by
  rw [flowEntries]
  · exact h
  · rintro ts' heq
    exact ht (List.cons.inj heq).1

theorem endsFlowNode_value (v : Value) (ts : List Token) :
    endsFlowNode (valueTokens v ++ ts) = false := by
  cases v <;> rfl

theorem length_memberTokens (m : String × Value) :
    (memberTokens m).length = (valueTokens m.2).length + 3 := by
  rw [memberTokens, List.length_append, Nat.add_comm]
  rfl

theorem flowPair_members (fuel : Nat) (rest : List Token) (m : String × Value)
    (members : List (String × Value)) (hfuel : (separated memberTokens (m :: members)).length < fuel) :
    flowPair g handles fuel (separated memberTokens (m :: members) ++ .flowMappingEnd :: rest) =
      .ok ((m :: members).map memberNode, rest) := by
  induction members generalizing m fuel with
  | nil =>
    rw [separated, length_memberTokens] at hfuel
    rw [separated, memberTokens, List.append_assoc]
    obtain ⟨fuel, rfl⟩ := Nat.exists_eq_add_of_le' (show 2 ≤ fuel by omega)
    exact flowPair_key g handles (endsFlowNode_value m.2 _) (node_value g handles m.2 (by omega))
      rfl
  | cons n members ih =>
    rw [separated_cons memberTokens m (List.cons_ne_nil n members)] at hfuel ⊢
    rw [List.length_append, List.length_cons, length_memberTokens] at hfuel
    obtain ⟨fuel, rfl⟩ := Nat.exists_eq_add_of_le' (show 2 ≤ fuel by omega)
    have hrest := ih fuel n (by omega)
    obtain ⟨tail, htail⟩ := separated_members n members
    rw [htail] at hrest ⊢
    rw [memberTokens, List.append_assoc, List.append_assoc]
    exact flowPair_key g handles (endsFlowNode_value m.2 _)
      (node_value g handles m.2 (by omega))
      (flowEntries_next g handles (by simp) hrest)

theorem node_text (fuel : Nat) (members : List (String × Value))
    (hfuel : (textTokens members).length < fuel) :
    node g handles fuel true false (textTokens members) = .ok (textNode members, []) := by
  rw [textTokens, List.length_append, List.length_cons, List.length_singleton] at hfuel
  rw [textTokens, List.cons_append]
  obtain ⟨fuel, rfl⟩ := Nat.exists_eq_add_of_le' (show 2 ≤ fuel by omega)
  refine node_flowMapping g handles ?_
  cases members with
  | nil => rfl
  | cons m members =>
    have hmembers := flowPair_members g handles fuel [] m members (by omega)
    obtain ⟨tail, htail⟩ := separated_members m members
    rw [htail] at hmembers ⊢
    exact hmembers

end Parse

theorem documents_flowMapping {fuel left : Nat} {doc : Node String} {ts : List Token}
    (h : Parse.node V11.grammar [] fuel true false (.flowMapping :: ts) = .ok (doc, [])) :
    Parse.documents V11.grammar fuel (left + 2) true (.flowMapping :: ts) = .ok [doc] := by
  have hopen : V11.grammar.openEnds = false := rfl
  have hstrict : V11.grammar.strictDirectives = false := rfl
  have hnone : Parse.documents V11.grammar fuel (left + 1) false [] = .ok [] := rfl
  rw [Parse.documents]
  simp [hopen, hstrict, Parse.isDirective, h, hnone, bind, Except.bind, pure, Except.pure]

theorem documents_textTokens (members : List (String × Value)) :
    Yaml.documents V11.grammar (textTokens members) = .ok [textNode members] := by
  have hnode := Parse.node_text V11.grammar [] (4 * (textTokens members).length + 4) members
    (by omega)
  obtain ⟨left, hlen⟩ : ∃ left, (textTokens members).length + 1 = left + 2 :=
    ⟨(textTokens members).length - 1, by simp [textTokens]⟩
  rw [Yaml.documents, hlen]
  exact documents_flowMapping hnode

end Preopt.Json
