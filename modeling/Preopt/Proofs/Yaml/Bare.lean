import Preopt.Yaml.Node

/-! Nodes without anchors, aliases and tags. Numbering has nothing to number in them. -/

namespace Preopt.Yaml.Node

variable {α β : Type}

inductive Bare : Node α → Prop
  | scalar (style : Style) (text : String) : Bare (.scalar {} style text)
  | sequence {items : List (Node α)} (hitems : ∀ item ∈ items, Bare item) :
      Bare (.sequence {} items)
  | mapping {entries : List (Node α × Node α)} (hkeys : ∀ e ∈ entries, Bare e.1)
      (hvalues : ∀ e ∈ entries, Bare e.2) : Bare (.mapping {} entries)

section

variable (f : α → β)

def mapProperties (ps : Properties α) : Properties β := ⟨ps.anchor.map f, ps.tag⟩

mutual

def map : Node α → Node β
  | .alias name => .alias (f name)
  | .scalar ps style text => .scalar (mapProperties f ps) style text
  | .sequence ps items => .sequence (mapProperties f ps) (mapAll items)
  | .mapping ps entries => .mapping (mapProperties f ps) (mapEntries entries)

def mapAll : List (Node α) → List (Node β)
  | [] => []
  | item :: rest => map item :: mapAll rest

def mapEntries : List (Node α × Node α) → List (Node β × Node β)
  | [] => []
  | (key, value) :: rest => (map key, map value) :: mapEntries rest

end

@[simp] theorem map_scalar (style : Style) (text : String) :
    (scalar {} style text).map f = .scalar {} style text := by
  simp [map, mapProperties]

@[simp] theorem map_sequence (items : List (Node α)) :
    (sequence {} items).map f = .sequence {} (items.map (map f)) := by
  have hitems : mapAll f items = items.map (map f) := by
    induction items with
    | nil => simp [mapAll]
    | cons item items ih => simp [mapAll, ih]
  simp [map, mapProperties, hitems]

@[simp] theorem map_mapping (entries : List (Node α × Node α)) :
    (mapping {} entries).map f = .mapping {} (entries.map fun e => (e.1.map f, e.2.map f)) := by
  have hentries : mapEntries f entries = entries.map fun e => (e.1.map f, e.2.map f) := by
    induction entries with
    | nil => simp [mapEntries]
    | cons e entries ih => simp [mapEntries, ih]
  simp [map, mapProperties, hentries]

end

section

variable (next : Names → Nat) (f : String → Nat)

theorem numberAll_of_forall {items : List (Node String)}
    (h : ∀ item ∈ items, ∀ names, number next item names = some (item.map f, names))
    (names : Names) : numberAll next items names = some (items.map (map f), names) := by
  induction items with
  | nil => simp [numberAll]
  | cons item items ih =>
    obtain ⟨hitem, hitems⟩ := List.forall_mem_cons.mp h
    simp [numberAll, hitem, ih hitems]

theorem numberEntries_of_forall {entries : List (Node String × Node String)}
    (hkeys : ∀ e ∈ entries, ∀ names, number next e.1 names = some (e.1.map f, names))
    (hvalues : ∀ e ∈ entries, ∀ names, number next e.2 names = some (e.2.map f, names))
    (names : Names) : numberEntries next entries names =
      some (entries.map fun e => (e.1.map f, e.2.map f), names) := by
  induction entries with
  | nil => simp [numberEntries]
  | cons e entries ih =>
    obtain ⟨hkey, hkeys⟩ := List.forall_mem_cons.mp hkeys
    obtain ⟨hvalue, hvalues⟩ := List.forall_mem_cons.mp hvalues
    simp [numberEntries, hkey, hvalue, ih hkeys hvalues]

theorem Bare.number_eq {node : Node String} (h : node.Bare) (names : Names) :
    node.number next names = some (node.map f, names) := by
  induction h generalizing names with
  | scalar style text => simp [number, numbered]
  | sequence _ ih => simp [number, numbered, numberAll_of_forall next f ih]
  | mapping _ _ ihkeys ihvalues =>
    simp [number, numbered, numberEntries_of_forall next f ihkeys ihvalues]

end

end Preopt.Yaml.Node
