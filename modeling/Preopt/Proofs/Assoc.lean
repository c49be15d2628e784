import Mathlib.Data.List.Nodup
import Preopt.Assoc

/-! Puts, one by one and in a row. A put changes what stands under its own key and nothing else. Keys
stay where they first came, and those that come later are added at the end, each of them once. -/

namespace Preopt.Assoc

variable {α β : Type} [DecidableEq α]

theorem get?_cons (k k' : α) (v : β) (rest : List (α × β)) :
    get? ((k, v) :: rest) k' = if k = k' then some v else get? rest k' := by
  by_cases h : k = k' <;> simp [get?, h]

theorem get?_put (entries : List (α × β)) (k k' : α) (v : β) :
    get? (put entries k v) k' = if k = k' then some v else get? entries k' := by
  induction entries with
  | nil => exact get?_cons k k' v []
  | cons entry rest ih =>
    rw [put]
    split
    case isTrue hkey =>
      subst hkey
      rw [get?_cons, get?_cons]
      split <;> rfl
    case isFalse hkey =>
      rw [get?_cons, get?_cons, ih]
      split
      case isTrue hk' => rw [if_neg fun hk => hkey (hk' ▸ hk.symm)]
      case isFalse => rfl

theorem filter_put (q : α → Bool) (entries : List (α × β)) (k : α) (v : β) :
    (put entries k v).filter (fun e => q e.1) =
      if q k then put (entries.filter fun e => q e.1) k v else entries.filter fun e => q e.1 := by
  induction entries with
  | nil => cases h : q k <;> simp [put, h]
  | cons entry rest ih =>
    obtain ⟨k', v'⟩ := entry
    rw [put]
    split
    case isTrue hkey =>
      subst hkey
      cases h : q k' <;> simp [put, h]
    case isFalse hkey =>
      cases h : q k <;> cases h' : q k' <;> simp [put, h, h', hkey, ih]

theorem mem_put {entries : List (α × β)} {k : α} {v : β} {entry : α × β}
    (h : entry ∈ put entries k v) : entry ∈ entries ∨ entry = (k, v) := by
  induction entries with
  | nil => exact .inr (List.mem_singleton.mp h)
  | cons first rest ih =>
    obtain ⟨k', v'⟩ := first
    rw [put] at h
    split at h
    · rcases List.mem_cons.mp h with rfl | h
      · exact .inr rfl
      · exact .inl (List.mem_cons_of_mem _ h)
    · rcases List.mem_cons.mp h with rfl | h
      · exact .inl List.mem_cons_self
      · exact (ih h).imp_left (List.mem_cons_of_mem _)

theorem keys_put (entries : List (α × β)) (k : α) (v : β) :
    keys (put entries k v) = if k ∈ keys entries then keys entries else keys entries ++ [k] := by
  induction entries with
  | nil => rfl
  | cons first rest ih =>
    obtain ⟨k', v'⟩ := first
    have hkeys : keys ((k', v') :: rest) = k' :: keys rest := rfl
    rw [put, hkeys]
    by_cases hk : k' = k
    · subst hk
      rw [if_pos rfl, if_pos List.mem_cons_self]
      rfl
    · have hmem : k ∈ k' :: keys rest ↔ k ∈ keys rest := by simp [Ne.symm hk]
      have htail : keys ((k', v') :: put rest k v) = k' :: keys (put rest k v) := rfl
      rw [if_neg hk, htail, ih, if_congr hmem rfl rfl]
      split <;> rfl

theorem length_put (entries : List (α × β)) (k : α) (v : β) : (put entries k v).length =
    if k ∈ keys entries then entries.length else entries.length + 1 := by
  have hlength := congrArg List.length (keys_put entries k v)
  rw [keys, List.length_map] at hlength
  rw [hlength]
  split
  · exact List.length_map _
  · rw [List.length_append, keys, List.length_map, List.length_singleton]

theorem nodup_keys_put {entries : List (α × β)} (h : (keys entries).Nodup) (k : α) (v : β) :
    (keys (put entries k v)).Nodup := by
  rw [keys_put]
  split
  · exact h
  · next hk => exact h.append (List.nodup_singleton k) (List.disjoint_singleton.mpr hk)

theorem getElem?_put_of_ne {entries : List (α × β)} {k k' : α} {v v' : β} {n : Nat} (hk : k' ≠ k)
    (h : entries[n]? = some (k', v')) : (put entries k v)[n]? = some (k', v') := by
  induction entries generalizing n with
  | nil => cases h
  | cons first rest ih =>
    obtain ⟨k₁, v₁⟩ := first
    rw [put]
    cases n with
    | zero =>
      obtain ⟨rfl, rfl⟩ := Prod.mk.inj (Option.some.inj h)
      rw [if_neg hk]
      rfl
    | succ n =>
      split
      · exact h
      · exact ih h

theorem put_of_get? {entries : List (α × β)} {k : α} {v : β} (h : get? entries k = some v) :
    put entries k v = entries := by
  induction entries with
  | nil => cases h
  | cons first rest ih =>
    obtain ⟨k', v'⟩ := first
    rw [get?_cons] at h
    rw [put]
    split
    · next hk =>
      rw [if_pos hk] at h
      rw [Option.some.inj h, hk]
    · next hk =>
      rw [if_neg hk] at h
      rw [ih h]

section Row

variable {τ : Type} {key : τ → α} {value : τ → β} {entries : List (α × β)} {ts : List τ}

theorem mem_foldl_put {entry : α × β}
    (h : entry ∈ ts.foldl (fun done t => put done (key t) (value t)) entries) :
    entry ∈ entries ∨ ∃ t ∈ ts, entry = (key t, value t) := by
  induction ts generalizing entries with
  | nil => exact .inl h
  | cons t ts ih =>
    rcases ih h with h | ⟨t', ht', rfl⟩
    · exact (mem_put h).imp_right fun h => ⟨t, List.mem_cons_self, h⟩
    · exact .inr ⟨t', List.mem_cons_of_mem _ ht', rfl⟩

theorem keys_foldl_put :
    keys (ts.foldl (fun done t => put done (key t) (value t)) entries) =
      keys entries ++ ((ts.map key).filter (· ∉ keys entries)).eraseDups := by
  induction ts generalizing entries with
  | nil => simp
  | cons t ts ih =>
    rw [List.foldl_cons, ih, keys_put, List.map_cons]
    split
    · next ht => rw [List.filter_cons_of_neg (by simpa using ht)]
    · next ht =>
      rw [List.filter_cons_of_pos (by simpa using ht), List.eraseDups_cons, List.filter_filter,
        List.append_assoc, List.singleton_append]
      congr 3
      refine List.filter_congr fun k _ => ?_
      by_cases hk : k = key t <;> simp [hk]

theorem nodup_keys_foldl_put (h : (keys entries).Nodup) :
    (keys (ts.foldl (fun done t => put done (key t) (value t)) entries)).Nodup :=
  List.foldlRecOn (motive := fun done : List (α × β) => (keys done).Nodup) ts _ h
    fun _ hdone t _ => nodup_keys_put hdone (key t) (value t)

theorem eraseDups_of_nodup {list : List α} (h : list.Nodup) : list.eraseDups = list := by
  induction list with
  | nil => rfl
  | cons k rest ih =>
    rw [List.nodup_cons] at h
    have hrest : rest.filter (fun k' => !k' == k) = rest :=
      List.filter_eq_self.mpr fun k' hk' => by simpa using ne_of_mem_of_not_mem hk' h.1
    rw [List.eraseDups_cons, hrest, ih h.2]

theorem keys_foldl_put_of_nodup (h : (ts.map key).Nodup) :
    keys (ts.foldl (fun done t => put done (key t) (value t)) entries) =
      keys entries ++ (ts.map key).filter (· ∉ keys entries) := by
  rw [keys_foldl_put, eraseDups_of_nodup (h.filter _)]

theorem get?_foldl_put_of_notMem {k : α} (h : k ∉ ts.map key) :
    get? (ts.foldl (fun done t => put done (key t) (value t)) entries) k = get? entries k := by
  induction ts generalizing entries with
  | nil => rfl
  | cons t ts ih =>
    rw [List.map_cons, List.mem_cons, not_or] at h
    rw [List.foldl_cons, ih h.2, get?_put, if_neg (Ne.symm h.1)]

/-- Where equal keys come with equal values, it does not matter which put was the last. -/
theorem get?_foldl_put (hvalue : ∀ t ∈ ts, ∀ t' ∈ ts, key t = key t' → value t = value t') {t : τ}
    (ht : t ∈ ts) :
    get? (ts.foldl (fun done t => put done (key t) (value t)) entries) (key t) =
      some (value t) := by
  induction ts generalizing entries t with
  | nil => cases ht
  | cons first ts ih =>
    have hlater : ∀ t ∈ ts, ∀ t' ∈ ts, key t = key t' → value t = value t' :=
      fun t ht t' ht' => hvalue t (List.mem_cons_of_mem _ ht) t' (List.mem_cons_of_mem _ ht')
    rw [List.foldl_cons]
    -- The last put under the key decides, and this one need not be it.
    by_cases hagain : key t ∈ ts.map key
    · obtain ⟨t', ht', hkey⟩ := List.mem_map.mp hagain
      rw [← hkey, ih hlater ht', hvalue t' (List.mem_cons_of_mem _ ht') t ht hkey]
    · obtain rfl : t = first := by
        rcases List.mem_cons.mp ht with rfl | ht
        · rfl
        · exact absurd (List.mem_map_of_mem ht) hagain
      rw [get?_foldl_put_of_notMem hagain, get?_put, if_pos rfl]

theorem getElem?_foldl_put_of_notMem {k : α} {v : β} {n : Nat} (hk : k ∉ ts.map key)
    (h : entries[n]? = some (k, v)) :
    (ts.foldl (fun done t => put done (key t) (value t)) entries)[n]? = some (k, v) := by
  induction ts generalizing entries with
  | nil => exact h
  | cons t ts ih =>
    rw [List.map_cons, List.mem_cons, not_or] at hk
    exact ih hk.2 (getElem?_put_of_ne hk.1 h)

theorem foldl_put_of_get? (h : ∀ t ∈ ts, get? entries (key t) = some (value t)) :
    ts.foldl (fun done t => put done (key t) (value t)) entries = entries := by
  induction ts with
  | nil => rfl
  | cons t ts ih =>
    rw [List.forall_mem_cons] at h
    rw [List.foldl_cons, put_of_get? h.1, ih h.2]

end Row

end Preopt.Assoc
