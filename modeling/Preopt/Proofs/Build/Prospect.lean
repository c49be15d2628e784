import Preopt.Proofs.Build.Failure

/-! What a build resolves to. The prospect of a build is the config in the global config's slot, or
what a resolution would put there now. It is decided before anything is derived: derivations leave
it as it is, and one that fails does so with the prospect's own error. -/

namespace Preopt.Build

open Once

variable (s : Settings) (files : FileTree)

def prospect (l : Ledger) : Except Error Resolved :=
  match l.value? Key.globalConfig with
  | some r => .ok r
  | none =>
    match s.globalConfig with
    | some path => readConfig files path
    | none => .ok ((l.value? Key.injectedConfig).getD fallback)

variable {s files} {given : Supply} {ks : List Key} {l l' : Ledger}

theorem prospect_of_resolved {r : Resolved} (h : l.value? Key.globalConfig = some r) :
    prospect s files l = .ok r := by
  rw [prospect, h]

theorem prospect_of_file {path : Path} (hn : l.value? Key.globalConfig = none)
    (hp : s.globalConfig = some path) : prospect s files l = readConfig files path := by
  rw [prospect, hn, hp]

theorem prospect_of_injection {stored : Option Resolved} (hn : l.value? Key.globalConfig = none)
    (hp : s.globalConfig = none) (hi : l.value? Key.injectedConfig = stored) :
    prospect s files l = .ok (stored.getD fallback) := by
  rw [prospect, hn, hp, hi]
  rfl

theorem InVain.prospect_eq {e : Error} {attempts : UInt64}
    (h : InVain s files e attempts l l') : prospect s files l = .error e := by
  obtain ⟨hn, path, hp, hread, -⟩ := h
  rw [prospect_of_file hn hp, hread]

section Grows

variable (hg : ∀ config, ¬ given.config config)
include hg

theorem Grows.fellBack {r : Resolved} (h : Grows s files given ks l l')
    (hn : l.value? Key.injectedConfig = none) (hi : l'.value? Key.injectedConfig = some r) :
    r = fallback ∧ (l'.value? Key.globalConfig).isSome := by
  rcases (h.gained hn hi).2 rfl with ⟨-, hr, hsome⟩ | ⟨config, hc, -⟩
  · exact ⟨hr, hsome⟩
  · exact absurd hc (hg config)

theorem Grows.injectedConfig_eq (h : Grows s files given ks l l')
    (hn : l'.value? Key.globalConfig = none) :
    l'.value? Key.injectedConfig = l.value? Key.injectedConfig := by
  cases hi : l.value? Key.injectedConfig with
  | some r => exact h.keeps hi
  | none =>
    cases hi' : l'.value? Key.injectedConfig with
    | none => rfl
    | some r =>
      obtain ⟨-, hsome⟩ := h.fellBack hg hi hi'
      rw [hn] at hsome
      cases hsome

theorem Grows.prospect_eq (h : Grows s files given ks l l') :
    prospect s files l' = prospect s files l := by
  cases hn : l.value? Key.globalConfig with
  | some r => rw [prospect_of_resolved hn, prospect_of_resolved (h.keeps hn)]
  | none =>
    cases hn' : l'.value? Key.globalConfig with
    | none =>
      cases hp : s.globalConfig with
      | some path => rw [prospect_of_file hn hp, prospect_of_file hn' hp]
      | none =>
        rw [prospect_of_injection hn hp rfl,
          prospect_of_injection hn' hp (h.injectedConfig_eq hg hn')]
    | some r =>
      obtain ⟨hfile, hinjected⟩ := (h.gained hn hn').1 rfl
      rw [prospect_of_resolved hn']
      cases hp : s.globalConfig with
      | some path => rw [prospect_of_file hn hp, hfile path hp]
      | none =>
        have hi' := hinjected hp
        cases hi : l.value? Key.injectedConfig with
        | some w =>
          obtain rfl : w = r := Option.some.inj ((h.keeps hi).symm.trans hi')
          rw [prospect_of_injection hn hp hi]
          rfl
        | none =>
          obtain ⟨rfl, -⟩ := h.fellBack hg hi hi'
          rw [prospect_of_injection hn hp hi]
          rfl

end Grows

theorem contents_ne_unusable {path : Path} {fault : GlobalConfig.Fault} :
    contents files path ≠ .error (.unusableConfig fault) := by
  unfold contents
  split
  · rintro ⟨⟩
  · split <;> rintro ⟨⟩

theorem readConfig_ne_unusable {path : Path} {fault : GlobalConfig.Fault} :
    readConfig files path ≠ .error (.unusableConfig fault) := by
  unfold readConfig
  split
  · next hread =>
    rintro ⟨⟩
    exact contents_ne_unusable hread
  · split <;> rintro ⟨⟩

theorem readConfig_of_prospect_error {e : Error} (h : prospect s files l = .error e) :
    ∃ path, s.globalConfig = some path ∧ readConfig files path = .error e := by
  cases hn : l.value? Key.globalConfig with
  | some r =>
    rw [prospect_of_resolved hn] at h
    cases h
  | none =>
    cases hp : s.globalConfig with
    | some path => exact ⟨path, rfl, (prospect_of_file hn hp).symm.trans h⟩
    | none =>
      rw [prospect_of_injection hn hp rfl] at h
      cases h

end Preopt.Build
