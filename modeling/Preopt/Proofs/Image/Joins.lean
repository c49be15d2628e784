import Mathlib.Data.List.Basic
import Preopt.Image

/-! Joined paths. Whatever relative piece is joined to a directory, the same lead is written before
it. Below a directory that ends in a name, pieces are the same path when the same parts are left of
them once empty ones and single dots are dropped. -/

namespace Preopt

namespace Path

def lead (p : Path) : List Char :=
  if p.needsSlash then p.text.toList ++ ['/'] else p.text.toList

theorem join_of_absolute (p : Path) {piece : String} (h : piece.toList.head? = some '/') :
    p.join piece = ⟨piece⟩ :=
  if_pos h

theorem join_of_relative (p : Path) {piece : String} (h : piece.toList.head? ≠ some '/') :
    (p.join piece).text.toList = p.lead ++ piece.toList := by
  rw [join, if_neg h, lead]
  split <;> simp

theorem join_injective {p : Path} {piece piece' : String} (h : piece.toList.head? ≠ some '/')
    (h' : piece'.toList.head? ≠ some '/') (heq : p.join piece = p.join piece') :
    piece = piece' := by
  have htext : p.lead ++ piece.toList = p.lead ++ piece'.toList := by
    rw [← join_of_relative p h, ← join_of_relative p h', heq]
  exact String.toList_inj.mp (List.append_cancel_left htext)

theorem lead_join (p : Path) {piece : String} {c : Char} (h : piece.toList.head? ≠ some '/')
    (hlast : piece.toList.getLast? = some c) (hc : c ≠ '/') :
    (p.join piece).lead = p.lead ++ piece.toList ++ ['/'] := by
  have hslash : (p.join piece).needsSlash = true := by
    rw [needsSlash, join_of_relative p h, List.getLast?_append, hlast]
    simpa using hc
  rw [lead, if_pos hslash, join_of_relative p h]

/-- The parts that tell one path from another. -/
def kept (parts : List (List Char)) : List (List Char) :=
  (parts.filter (· ≠ [])).filter (· ≠ ['.'])

def Tidy (text : List Char) : Prop := ∀ part ∈ text.splitOn '/', part ≠ [] ∧ part ≠ ['.']

theorem kept_of_tidy {text : List Char} (h : Tidy text) :
    kept (text.splitOn '/') = text.splitOn '/' := by
  have hempty : (text.splitOn '/').filter (· ≠ []) = text.splitOn '/' :=
    List.filter_eq_self.mpr fun part hpart => by simpa using (h part hpart).1
  rw [kept, hempty]
  exact List.filter_eq_self.mpr fun part hpart => by simpa using (h part hpart).2

theorem kept_injective {text text' : List Char} (h : Tidy text) (h' : Tidy text')
    (heq : kept (text.splitOn '/') = kept (text'.splitOn '/')) : text = text' := by
  have hjoin (l : List Char) : ['/'].intercalate (l.splitOn '/') = l := List.intercalate_splitOn '/'
  rw [kept_of_tidy h, kept_of_tidy h'] at heq
  rw [← hjoin text, heq, hjoin]

theorem counts_of_length {part : List Char} (h : 2 ≤ part.length) : part ≠ [] ∧ part ≠ ['.'] :=
  ⟨by rintro rfl; simp at h, by rintro rfl; simp at h⟩

theorem tidy_of_name {text : List Char} (h : '/' ∉ text) (hlength : 2 ≤ text.length) :
    Tidy text := by
  rw [Tidy, List.splitOn_eq_singleton h]
  exact List.forall_mem_singleton.mpr (counts_of_length hlength)

/-- The first part stays also as a single dot, unless it comes after a slash. -/
theorem components_eq {p : Path} {part : List Char} {parts : List (List Char)}
    (h : (p.text.toList.splitOn '/').filter (· ≠ []) = part :: parts) :
    p.components = (p.isAbsolute,
      (if p.isAbsolute = false ∧ part = ['.'] then [part] else [part].filter (· ≠ ['.'])) ++
        parts.filter (· ≠ ['.'])) := by
  rw [components, h]
  by_cases hdot : p.isAbsolute = false ∧ part = ['.']
  · obtain ⟨hrelative, rfl⟩ := hdot
    simp [hrelative]
  · rw [if_neg hdot, ← List.filter_append]
    split
    · next hrelative hparts =>
      obtain ⟨rfl, -⟩ := List.cons.inj hparts
      exact absurd ⟨hrelative, rfl⟩ hdot
    · rfl

theorem same_iff_of_parts {p q : Path} {front parts parts' : List (List Char)}
    (habs : p.isAbsolute = q.isAbsolute) (hfront : front.filter (· ≠ []) ≠ [])
    (hp : p.text.toList.splitOn '/' = front ++ parts)
    (hq : q.text.toList.splitOn '/' = front ++ parts') :
    p.same q ↔ kept parts = kept parts' := by
  obtain ⟨part, rest, hrest⟩ := List.exists_cons_of_ne_nil hfront
  have hparts {l : List (List Char)} :
      (front ++ l).filter (· ≠ []) = part :: (rest ++ l.filter (· ≠ [])) := by
    rw [List.filter_append, hrest, List.cons_append]
  rw [same, components_eq (hp ▸ hparts), components_eq (hq ▸ hparts), habs, beq_iff_eq,
    Prod.mk.injEq, and_iff_right rfl, List.append_cancel_left_eq, List.filter_append,
    List.filter_append, List.append_cancel_left_eq, kept, kept]

/-- Below a directory that ends in a name, only the pieces tell two paths apart. -/
theorem same_join_iff {p : Path} {front name : List Char}
    (hlead : p.lead = front ++ '/' :: (name ++ ['/'])) (hname : '/' ∉ name) (hne : name ≠ [])
    {piece piece' : String} (h : piece.toList.head? ≠ some '/')
    (h' : piece'.toList.head? ≠ some '/') :
    (p.join piece).same (p.join piece') ↔
      kept (piece.toList.splitOn '/') = kept (piece'.toList.splitOn '/') := by
  have htext {piece : String} (h : piece.toList.head? ≠ some '/') :
      (p.join piece).text.toList = front ++ '/' :: (name ++ '/' :: piece.toList) := by
    rw [join_of_relative p h, hlead]
    simp
  have hparts {piece : String} (h : piece.toList.head? ≠ some '/') :
      (p.join piece).text.toList.splitOn '/' =
        (front.splitOn '/' ++ [name]) ++ piece.toList.splitOn '/' := by
    rw [htext h, List.splitOn_append_cons_self, List.splitOn_append_cons_self_of_not_mem hname,
      List.append_assoc, List.singleton_append]
  refine same_iff_of_parts ?_ ?_ (hparts h) (hparts h')
  · rw [isAbsolute, isAbsolute, htext h, htext h']
    cases front <;> rfl
  · simp [List.filter_append, hne]

def TidyWithin (text : List Char) : Prop :=
  ∀ part ∈ (text.splitOn '/').tail.dropLast, part ≠ [] ∧ part ≠ ['.']

instance (text : List Char) : Decidable (TidyWithin text) :=
  inferInstanceAs (Decidable (∀ part ∈ _, _))

theorem splitOn_append_left {before : List Char} (text : List Char) (h : '/' ∉ before) :
    (before ++ text).splitOn '/' = (text.splitOn '/').modifyHead (before ++ ·) := by
  induction before with
  | nil =>
    rw [List.nil_append]
    cases text.splitOn '/' <;> rfl
  | cons c before ih =>
    obtain ⟨hc, hbefore⟩ : c ≠ '/' ∧ '/' ∉ before := by simpa [eq_comm] using h
    rw [List.cons_append, List.splitOn_cons_eq_if_modifyHead, if_neg (by simpa using hc),
      ih hbefore, List.modifyHead_modifyHead]
    rfl

theorem splitOn_append_right (text : List Char) {behind : List Char} (h : '/' ∉ behind) :
    ∃ last, (text ++ behind).splitOn '/' = (text.splitOn '/').dropLast ++ [last ++ behind] := by
  induction text with
  | nil => exact ⟨[], by simp [List.splitOn_eq_singleton h]⟩
  | cons c text ih =>
    obtain ⟨last, hlast⟩ := ih
    rw [List.cons_append, List.splitOn_cons_eq_if_modifyHead, List.splitOn_cons_eq_if_modifyHead,
      hlast]
    split
    · refine ⟨last, ?_⟩
      rw [List.dropLast_cons_of_ne_nil (List.splitOn_ne_nil _ _), List.cons_append]
    · cases hparts : text.splitOn '/' with
      | nil => exact absurd hparts (List.splitOn_ne_nil _ _)
      | cons part parts =>
        cases parts with
        | nil => exact ⟨c :: last, rfl⟩
        | cons part' parts => exact ⟨last, rfl⟩

theorem tidy_of_within {before text behind : List Char} (h : TidyWithin text)
    (hbefore : '/' ∉ before) (hbehind : '/' ∉ behind) (hfirst : 2 ≤ before.length)
    (hlast : 2 ≤ behind.length) : Tidy (before ++ text ++ behind) := by
  obtain ⟨last, hsplit⟩ := splitOn_append_right text hbehind
  have hparts := splitOn_append_left (text ++ behind) hbefore
  intro part hpart
  rw [List.append_assoc, hparts, hsplit] at hpart
  cases hmid : (text.splitOn '/').dropLast with
  | nil =>
    rw [hmid] at hpart
    obtain rfl : part = before ++ (last ++ behind) := by simpa using hpart
    exact counts_of_length (by simp; omega)
  | cons first mid =>
    rw [hmid] at hpart
    have hwithin : ∀ p ∈ mid, p ≠ [] ∧ p ≠ ['.'] := by
      intro p hp
      refine h p ?_
      rw [← List.tail_dropLast, hmid]
      exact hp
    rcases List.mem_cons.mp hpart with rfl | hpart
    · exact counts_of_length (by simp; omega)
    · rcases List.mem_append.mp hpart with hpart | hpart
      · exact hwithin part hpart
      · obtain rfl := List.mem_singleton.mp hpart
        exact counts_of_length (by simp; omega)

end Path

end Preopt
