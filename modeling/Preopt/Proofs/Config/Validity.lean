import Mathlib.Data.List.Forall2
import Mathlib.Data.List.TakeWhile
import Preopt.GlobalConfig

/-! What a valid config is: every updatable entry is a pair, divided at its first colon, and neither
of the two boot lists names a module twice. -/

namespace Preopt

theorem ApexJar.of_parse {value : String} {pair : ApexJar} (h : parse? value = some pair) :
    value.toList = pair.apex.toList ++ ':' :: pair.jar.toList ∧ ':' ∉ pair.apex.toList := by
  have hsplit := List.takeWhile_append_dropWhile (p := (· ≠ ':')) (l := value.toList)
  unfold parse? at h
  split at h
  · cases h
  · next c jar hdrop =>
    dsimp only at h
    split at h
    · cases h
    · obtain rfl := Option.some.inj h
      have hc : c = ':' := by
        have hhead := List.head?_dropWhile_not (p := (· ≠ ':')) value.toList
        rw [hdrop] at hhead
        simpa using hhead
      rw [hdrop, hc] at hsplit
      refine ⟨by simpa using hsplit.symm, fun hcolon => ?_⟩
      have hbefore := List.mem_takeWhile_imp (String.toList_ofList ▸ hcolon)
      simp at hbefore

theorem ApexJar.count_colon_iff {value : String} {pair : ApexJar} (h : parse? value = some pair) :
    value.toList.count ':' = 1 ↔ ':' ∉ pair.jar.toList := by
  obtain ⟨hvalue, hapex⟩ := of_parse h
  rw [hvalue, List.count_append, List.count_cons_self, List.count_eq_zero.mpr hapex, Nat.zero_add,
    Nat.add_eq_right, List.count_eq_zero]

namespace GlobalConfig

theorem firstRepeat_eq_none_iff {seen modules : List String} :
    firstRepeat seen modules = none ↔ (∀ m ∈ modules, m ∉ seen) ∧ modules.Nodup := by
  induction modules generalizing seen with
  | nil => simp [firstRepeat]
  | cons m rest ih =>
    rw [firstRepeat]
    split
    · next hseen => simp [hseen]
    · next hseen =>
      rw [ih, List.nodup_cons]
      constructor
      · rintro ⟨hrest, hnodup⟩
        refine ⟨List.forall_mem_cons.mpr ⟨hseen, fun m' hm' h => ?_⟩, fun h => ?_, hnodup⟩
        · exact hrest m' hm' (List.mem_cons_of_mem _ h)
        · exact hrest m h List.mem_cons_self
      · rintro ⟨hall, hm, hnodup⟩
        refine ⟨fun m' hm' h => ?_, hnodup⟩
        rcases List.mem_cons.mp h with rfl | h
        · exact hm hm'
        · exact hall m' (List.mem_cons_of_mem _ hm') h

theorem checkUnique_ok_iff (list : String) {modules : List String} :
    checkUnique list modules = .ok () ↔ modules.Nodup := by
  have hfirst : firstRepeat [] modules = none ↔ (∀ m ∈ modules, m ∉ []) ∧ modules.Nodup :=
    firstRepeat_eq_none_iff
  rw [checkUnique]
  cases h : firstRepeat [] modules with
  | none => simpa using (hfirst.mp h).2
  | some m =>
    refine iff_of_false (by simp) fun hnodup => ?_
    rw [hfirst.mpr ⟨by simp, hnodup⟩] at h
    cases h

theorem splitPair_ok_iff {value : String} {pair : ApexJar} :
    splitPair value = .ok pair ↔ ApexJar.parse? value = some pair := by
  rw [splitPair]
  cases ApexJar.parse? value <;> simp

theorem of_mapM_splitPair {values : List String} {pairs : List ApexJar}
    (h : values.mapM splitPair = .ok pairs) :
    List.Forall₂ (fun value pair => ApexJar.parse? value = some pair) values pairs := by
  induction values generalizing pairs with
  | nil =>
    cases h
    exact .nil
  | cons value rest ih =>
    rw [List.mapM_cons] at h
    cases hv : splitPair value with
    | error e =>
      rw [hv] at h
      cases h
    | ok pair =>
      cases hr : rest.mapM splitPair with
      | error e =>
        rw [hv, hr] at h
        cases h
      | ok pairs' =>
        rw [hv, hr] at h
        cases h
        exact .cons (splitPair_ok_iff.mp hv) (ih hr)

theorem checkPairs_ok_iff {values : List String} :
    checkPairs values = .ok () ↔ ∀ value ∈ values, ∃ pair, ApexJar.parse? value = some pair := by
  induction values with
  | nil => simp [checkPairs]
  | cons value rest ih =>
    rw [checkPairs, splitPair, List.forall_mem_cons, ← ih]
    cases ApexJar.parse? value <;> simp

theorem validate_ok_iff {config : GlobalConfig} :
    config.validate = .ok () ↔
      (∀ value ∈ config.updatableSystemServerJars, ∃ pair, ApexJar.parse? value = some pair) ∧
        config.artApexJars.Nodup ∧ config.bootJars.Nodup := by
  rw [← checkPairs_ok_iff, ← checkUnique_ok_iff "ArtApexJars", ← checkUnique_ok_iff "BootJars",
    validate]
  cases checkPairs config.updatableSystemServerJars with
  | error e => exact iff_of_false (by rintro ⟨⟩) (by simp)
  | ok u =>
    cases checkUnique "ArtApexJars" config.artApexJars with
    | error e => exact iff_of_false (by rintro ⟨⟩) (by simp)
    | ok u' => exact ⟨fun h => ⟨rfl, rfl, h⟩, fun h => h.2.2⟩

end GlobalConfig

end Preopt
