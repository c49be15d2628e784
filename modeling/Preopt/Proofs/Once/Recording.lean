import Mathlib.Data.List.Basic
import Preopt.Once.Ledger

/-! Recording paths one after the other. Of the paths that are the same, the first one recorded is
kept as it is spelled, and nothing that is kept is given up later. -/

namespace Preopt

theorem Path.same_iff {p q : Path} : p.same q ↔ p.components = q.components := by
  rw [same, beq_iff_eq]

namespace Once

def keep (kept : List Path) (p : Path) : List Path :=
  if kept.any p.same then kept else kept ++ [p]

theorem dependencies_depend {κ : Type} [Kinds κ] (l : Ledger κ) (p : Path) :
    (l.depend p).dependencies = keep l.dependencies p := by
  rw [Ledger.depend, keep]
  split <;> rfl

structure Lists (recorded listed : List Path) : Prop where
  eq : listed = recorded.eraseDupsBy Path.same
  apart : listed.Pairwise fun p q => ¬ p.same q
  mem_iff {p : Path} : p ∈ listed ↔
    ∃ before after, recorded = before ++ p :: after ∧ ∀ q ∈ before, ¬ p.same q
  ordered : listed.Sublist recorded

theorem foldl_keep_eq_loop (ps kept : List Path) :
    ps.foldl keep kept.reverse = List.eraseDupsBy.loop Path.same ps kept := by
  induction ps generalizing kept with
  | nil => rfl
  | cons p ps ih =>
    rw [List.foldl_cons, keep, List.any_reverse, List.eraseDupsBy.loop]
    cases kept.any p.same with
    | true => exact ih kept
    | false =>
      rw [if_neg (by simp), ← List.reverse_cons]
      exact ih (p :: kept)

theorem foldl_keep_eq (ps : List Path) : ps.foldl keep [] = ps.eraseDupsBy Path.same :=
  foldl_keep_eq_loop ps []

theorem isPrefix_foldl_keep (ps kept : List Path) : kept <+: ps.foldl keep kept := by
  induction ps generalizing kept with
  | nil => exact List.prefix_refl kept
  | cons p ps ih =>
    rw [List.foldl_cons, keep]
    split
    · exact ih kept
    · exact (List.prefix_append kept [p]).trans (ih _)

theorem foldl_keep_pairwise (ps : List Path) {kept : List Path}
    (h : kept.Pairwise fun p q => ¬ p.same q) :
    (ps.foldl keep kept).Pairwise fun p q => ¬ p.same q := by
  induction ps generalizing kept with
  | nil => exact h
  | cons p ps ih =>
    rw [List.foldl_cons, keep]
    split
    · exact ih h
    · next hp =>
      refine ih (List.pairwise_append.mpr ⟨h, List.pairwise_singleton _ _, ?_⟩)
      intro q hq p' hp' hsame
      obtain rfl := List.mem_singleton.mp hp'
      refine hp (List.any_eq_true.mpr ⟨q, hq, ?_⟩)
      rw [Path.same_iff] at hsame ⊢
      exact hsame.symm

theorem foldl_keep_sublist (ps kept : List Path) : ∃ added,
    ps.foldl keep kept = kept ++ added ∧ added.Sublist ps := by
  induction ps generalizing kept with
  | nil => exact ⟨[], by simp, .slnil⟩
  | cons p ps ih =>
    rw [List.foldl_cons, keep]
    split
    · obtain ⟨added, hadded, hsub⟩ := ih kept
      exact ⟨added, hadded, hsub.cons p⟩
    · obtain ⟨added, hadded, hsub⟩ := ih (kept ++ [p])
      exact ⟨p :: added, by simp [hadded], hsub.cons_cons p⟩

theorem exists_first_cons {ps kept : List Path} {p q : Path} :
    (∃ before after, q :: ps = before ++ p :: after ∧ ∀ x ∈ kept ++ before, ¬ p.same x) ↔
      (p = q ∧ ∀ x ∈ kept, ¬ p.same x) ∨
        ∃ before after, ps = before ++ p :: after ∧ ∀ x ∈ kept ++ q :: before, ¬ p.same x := by
  constructor
  · rintro ⟨before, after, heq, hnone⟩
    cases before with
    | nil =>
      obtain ⟨rfl, rfl⟩ := List.cons.inj heq
      exact Or.inl ⟨rfl, by simpa using hnone⟩
    | cons b before =>
      obtain ⟨rfl, rfl⟩ := List.cons.inj heq
      exact Or.inr ⟨before, after, rfl, hnone⟩
  · rintro (⟨rfl, hnone⟩ | ⟨before, after, rfl, hnone⟩)
    · exact ⟨[], ps, rfl, by simpa using hnone⟩
    · exact ⟨q :: before, after, rfl, hnone⟩

/-- A path is kept if it was, or if it comes when nothing the same was there yet. -/
theorem mem_foldl_keep {ps kept : List Path} {p : Path} :
    p ∈ ps.foldl keep kept ↔ p ∈ kept ∨
      ∃ before after, ps = before ++ p :: after ∧ ∀ x ∈ kept ++ before, ¬ p.same x := by
  induction ps generalizing kept with
  | nil => simp
  | cons q ps ih =>
    rw [List.foldl_cons, ih, exists_first_cons, keep]
    by_cases hq : kept.any q.same
    · obtain ⟨x, hx, hsame⟩ := List.any_eq_true.mp hq
      -- Nothing is lost with `q`: what is the same as `q` is the same as `x`, which is kept already.
      have hnot : ¬ (p = q ∧ ∀ x ∈ kept, ¬ p.same x) := by
        rintro ⟨rfl, hnone⟩
        exact hnone x hx hsame
      have hnone (before : List Path) : (∀ x ∈ kept ++ q :: before, ¬ p.same x) ↔
          ∀ x ∈ kept ++ before, ¬ p.same x := by
        have hpq (h : ∀ x ∈ kept, ¬ p.same x) : ¬ p.same q := by
          intro hp
          refine h x hx ?_
          rw [Path.same_iff] at hp hsame ⊢
          exact hp.trans hsame
        simp only [List.forall_mem_append, List.forall_mem_cons]
        exact ⟨fun h => ⟨h.1, h.2.2⟩, fun h => ⟨h.1, hpq h.1, h.2⟩⟩
      simp only [if_pos hq, hnone, hnot, false_or]
    · have hnone : p = q → ∀ x ∈ kept, ¬ p.same x := by
        rintro rfl x hx hsame
        exact hq (List.any_eq_true.mpr ⟨x, hx, hsame⟩)
      rw [if_neg hq, and_iff_left_of_imp hnone, List.mem_append, List.mem_singleton, or_assoc]
      simp only [List.append_assoc, List.singleton_append]

theorem lists_foldl_keep (ps : List Path) : Lists ps (ps.foldl keep []) where
  eq := foldl_keep_eq ps
  apart := foldl_keep_pairwise ps .nil
  mem_iff := by
    intro p
    rw [mem_foldl_keep]
    simp
  ordered := by
    obtain ⟨added, hadded, hsub⟩ := foldl_keep_sublist ps []
    rw [hadded]
    exact hsub

end Once
end Preopt
