import Mathlib.Data.List.Forall2
import Mathlib.Data.List.Nodup
import Preopt.Proofs.Build.Resolution
import Preopt.Proofs.Json.Grammar
import Preopt.Proofs.Session.Requests
import Preopt.Proofs.Yaml.Bare

/-! What a mapping says as a global config. Each key of the config speaks for its own field, and the
entries under other keys say nothing, whatever they are and wherever they stand. -/

namespace Preopt

open Yaml (Node Style)
open Json (Value fields)

namespace GlobalConfig

def keys : List String := fields.map (·.1)

def flagKeys : List String := ["DisablePreopt", "DisableGenerateProfile"]

def listKeys : List String :=
  ["ArtApexJars", "BootJars", "ProductUpdatableBootModules", "ProductUpdatableBootLocations",
    "SystemServerJars", "UpdatableSystemServerJars"]

def IsText (node : Node String) (text : String) : Prop := ∃ style, node = .scalar {} style text

inductive Decodes : String → Node String → Value → Prop
  | on {k text : String} (hk : k ∈ flagKeys) (htext : text ∈ ["true", "True", "TRUE"]) :
      Decodes k (.scalar {} .plain text) (.flag true)
  | off {k text : String} (hk : k ∈ flagKeys) (htext : text ∈ ["false", "False", "FALSE"]) :
      Decodes k (.scalar {} .plain text) (.flag false)
  | nothing {k : String} (hk : k ∈ listKeys) : Decodes k (.scalar {} .plain "") (.list [])
  | items {k : String} {items : List (Node String)} {texts : List String} (hk : k ∈ listKeys)
      (hitems : List.Forall₂ IsText items texts) : Decodes k (.sequence {} items) (.list texts)

structure Entry where
  style : Style
  key : String
  value : Node String
  bare : value.Bare

def Entry.nodes (e : Entry) : Node String × Node String := (.scalar {} e.style e.key, e.value)

def mappingOf (entries : List Entry) : Node String := .mapping {} (entries.map (·.nodes))

def known (entries : List Entry) : List (String × Node String) :=
  (entries.filter fun e => e.key ∈ keys).map fun e => (e.key, e.value)

def Once (entries : List Entry) : Prop := ∀ k ∈ keys, (entries.map (·.key)).count k ≤ 1

theorem fields_unique {k : String} {f g : GlobalConfig → Value} (hf : (k, f) ∈ fields)
    (hg : (k, g) ∈ fields) : f = g := by
  have hnodup : (fields.map (·.1)).Nodup := by decide
  exact congrArg Prod.snd (List.inj_on_of_nodup_map hnodup hf hg rfl)

theorem eq_of_fields {c config : GlobalConfig} (h : ∀ f ∈ fields, f.2 config = f.2 c) :
    config = c := by
  cases c
  cases config
  simpa [fields] using h

theorem exists_field {k : String} (h : k ∈ keys) : ∃ field, (k, field) ∈ fields := by
  obtain ⟨f, hf, rfl⟩ := List.mem_map.mp h
  exact ⟨f.2, hf⟩

theorem Decodes.exists_flag {k : String} {node : Node String} {v : Value} (h : Decodes k node v)
    (hk : k ∈ flagKeys) : ∃ w, v = .flag w := by
  have hdisjoint : ∀ k ∈ flagKeys, k ∉ listKeys := by decide
  cases h with
  | on | off => exact ⟨_, rfl⟩
  | nothing hk' | items hk' => exact absurd hk' (hdisjoint k hk)

theorem Decodes.exists_list {k : String} {node : Node String} {v : Value} (h : Decodes k node v)
    (hk : k ∈ listKeys) : ∃ w, v = .list w := by
  have hdisjoint : ∀ k ∈ flagKeys, k ∉ listKeys := by decide
  cases h with
  | on hk' | off hk' => exact absurd hk (hdisjoint k hk')
  | nothing | items => exact ⟨_, rfl⟩

section Nodes

variable (d : Document) (f : String → Nat)

theorem text?_map_iff {node : Node String} (h : node.Bare) {text : String} :
    text? d (node.map f) = some text ↔ IsText node text := by
  cases h <;> simp [text?, Document.resolve, IsText]

theorem mapM_text?_iff {items : List (Node String)} (h : ∀ item ∈ items, item.Bare)
    {texts : List String} :
    (items.map (Node.map f)).mapM (text? d) = some texts ↔ List.Forall₂ IsText items texts := by
  induction items generalizing texts with
  | nil => simp [eq_comm]
  | cons item items ih =>
    obtain ⟨hitem, hitems⟩ := List.forall_mem_cons.mp h
    rw [List.map_cons, List.mapM_cons]
    simp only [Option.bind_eq_bind, Option.bind_eq_some_iff, Option.pure_def, Option.some.injEq,
      text?_map_iff d f hitem, ih hitems]
    cases texts <;> simp

theorem flag?_map_iff {k : String} (hk : k ∈ flagKeys) {node : Node String} (h : node.Bare)
    {v : Bool} : flag? d (node.map f) = some v ↔ Decodes k node (.flag v) := by
  cases h with
  | scalar style text =>
    simp only [flag?, Node.map_scalar, Document.resolve, flagText?]
    constructor
    · intro h
      split at h
      · next hstyle =>
        obtain rfl : style = .plain := by simpa using hstyle
        split at h
        · next htext =>
          cases h
          exact .on hk htext
        · split at h
          · next htext =>
            cases h
            exact .off hk htext
          · cases h
      · cases h
    · intro h
      cases h with
      | on _ htext => simp [htext]
      | off _ htext =>
        simp only [List.mem_cons, List.not_mem_nil, or_false] at htext
        rcases htext with rfl | rfl | rfl <;> simp
  | sequence =>
    constructor
    · simp [flag?, Document.resolve]
    · intro h
      cases h
  | mapping =>
    constructor
    · simp [flag?, Document.resolve]
    · intro h
      cases h

theorem list?_map_iff {k : String} (hk : k ∈ listKeys) {node : Node String} (h : node.Bare)
    {v : List String} : list? d (node.map f) = some v ↔ Decodes k node (.list v) := by
  cases h with
  | scalar style text =>
    simp only [list?, Node.map_scalar, Document.resolve]
    constructor
    · intro h
      split at h
      · next hempty =>
        obtain ⟨rfl, rfl⟩ := hempty
        cases h
        exact .nothing hk
      · cases h
    · intro h
      cases h
      simp
  | sequence hitems =>
    simp only [list?, Node.map_sequence, Document.resolve]
    rw [mapM_text?_iff d f hitems]
    constructor
    · exact .items hk
    · intro h
      cases h with
      | items _ hitems => exact hitems
  | mapping =>
    constructor
    · simp [list?, Document.resolve]
    · intro h
      cases h

end Nodes

section Setters

structure Sets (k : String) (field : GlobalConfig → Value) (node : Node String)
    (start : GlobalConfig) (result : Option GlobalConfig) : Prop where
  accepts {v : Value} : Decodes k node v → ∃ next, result = some next ∧ field next = v
  told {next : GlobalConfig} : result = some next → Decodes k node (field next)
  others {next : GlobalConfig} : result = some next →
    ∀ g ∈ fields, g.1 ≠ k → g.2 next = g.2 start

theorem sets_map {k : String} {node : Node String} {start : GlobalConfig} {α : Type}
    {wrap : α → Value} {get : GlobalConfig → α} {read : Option α} {put : α → GlobalConfig}
    (hwrap : ∀ {v}, Decodes k node v → ∃ w, v = wrap w)
    (hread : ∀ {w}, read = some w ↔ Decodes k node (wrap w)) (hget : ∀ w, get (put w) = w)
    (hothers : ∀ w, ∀ g ∈ fields, g.1 ≠ k → g.2 (put w) = g.2 start) :
    Sets k (fun c => wrap (get c)) node start (read.map put) where
  accepts h := by
    obtain ⟨w, rfl⟩ := hwrap h
    exact ⟨put w, by simp [hread.mpr h], by simp [hget]⟩
  told h := by
    obtain ⟨w, hw, rfl⟩ := Option.map_eq_some_iff.mp h
    simpa [hget] using hread.mp hw
  others h := by
    obtain ⟨w, -, rfl⟩ := Option.map_eq_some_iff.mp h
    exact hothers w

variable (d : Document) (f : String → Nat)

theorem setter?_of_notMem {k : String} (h : k ∉ keys) : setter? k = none := by
  unfold setter?
  split
  all_goals first | rfl | exact absurd (by decide) h

theorem setter?_of_mem {k : String} {field : GlobalConfig → Value} (h : (k, field) ∈ fields) :
    ∃ set, setter? k = some set ∧ ∀ {node : Node String}, node.Bare → ∀ start,
      Sets k field node start (set d (node.map f) start) := by
  simp only [fields, List.mem_cons, List.not_mem_nil, or_false, Prod.mk.injEq] at h
  rcases h with ⟨rfl, rfl⟩ | ⟨rfl, rfl⟩ | ⟨rfl, rfl⟩ | ⟨rfl, rfl⟩ | ⟨rfl, rfl⟩ | ⟨rfl, rfl⟩ |
    ⟨rfl, rfl⟩ | ⟨rfl, rfl⟩
  iterate 2
    exact ⟨_, rfl, fun hnode _ => sets_map (fun h => h.exists_flag (by decide))
      (flag?_map_iff d f (by decide) hnode) (fun _ => rfl) (by simp [fields])⟩
  all_goals
    exact ⟨_, rfl, fun hnode _ => sets_map (fun h => h.exists_list (by decide))
      (list?_map_iff d f (by decide) hnode) (fun _ => rfl) (by simp [fields])⟩

end Setters

section Entries

structure Decoded (pairs : List (String × Node String)) (start config : GlobalConfig) : Prop where
  told : ∀ f ∈ fields, ∀ node, (f.1, node) ∈ pairs → Decodes f.1 node (f.2 config)
  untold : ∀ f ∈ fields, f.1 ∉ pairs.map (·.1) → f.2 config = f.2 start

theorem Decoded.of_perm {pairs pairs' : List (String × Node String)} (h : pairs.Perm pairs')
    {start config : GlobalConfig} (hd : Decoded pairs start config) :
    Decoded pairs' start config where
  told f hf node hnode := hd.told f hf node (h.mem_iff.mpr hnode)
  untold f hf hk := hd.untold f hf fun hmem => hk ((h.map _).mem_iff.mp hmem)

theorem decoded_nil_iff {start config : GlobalConfig} :
    Decoded [] start config ↔ ∀ f ∈ fields, f.2 config = f.2 start := by
  constructor
  · intro h f hf
    exact h.untold f hf List.not_mem_nil
  · intro h
    exact ⟨by simp, fun f hf _ => h f hf⟩

theorem decoded_cons_iff {k : String} {field : GlobalConfig → Value} (hfield : (k, field) ∈ fields)
    {node : Node String} {rest : List (String × Node String)} (hk : k ∉ rest.map (·.1))
    {start config : GlobalConfig} {result : Option GlobalConfig}
    (h : Sets k field node start result) :
    Decoded ((k, node) :: rest) start config ↔
      ∃ next, result = some next ∧ Decoded rest next config := by
  constructor
  · intro hd
    have hnode : Decodes k node (field config) := hd.told _ hfield node List.mem_cons_self
    obtain ⟨next, hnext, hsame⟩ := h.accepts hnode
    refine ⟨next, hnext, fun g hg n hn => hd.told g hg n (List.mem_cons_of_mem _ hn), ?_⟩
    intro g hg hrest
    by_cases hgk : g.1 = k
    · obtain rfl : g.2 = field := fields_unique (hgk ▸ hg) hfield
      exact hsame.symm
    · rw [h.others hnext g hg hgk]
      exact hd.untold g hg (by simp [hgk, hrest])
  · rintro ⟨next, hnext, hd⟩
    have hsame : field config = field next := hd.untold _ hfield hk
    constructor
    · intro g hg n hn
      rcases List.mem_cons.mp hn with heq | hn
      · obtain ⟨hgk, rfl⟩ := Prod.mk.inj heq
        obtain rfl : g.2 = field := fields_unique (hgk ▸ hg) hfield
        rw [hsame, hgk]
        exact h.told hnext
      · exact hd.told g hg n hn
    · intro g hg hn
      simp only [List.map_cons, List.mem_cons, not_or] at hn
      rw [hd.untold g hg hn.2, h.others hnext g hg hn.1]

variable (d : Document) (f : String → Nat)

theorem known_cons_of_mem {e : Entry} (h : e.key ∈ keys) (rest : List Entry) :
    known (e :: rest) = (e.key, e.value) :: known rest := by
  simp [known, h]

theorem known_cons_of_notMem {e : Entry} (h : e.key ∉ keys) (rest : List Entry) :
    known (e :: rest) = known rest := by
  simp [known, h]

theorem once_iff (entries : List Entry) : Once entries ↔ ((known entries).map (·.1)).Nodup := by
  have hkeys : (known entries).map (·.1) = (entries.map (·.key)).filter (· ∈ keys) := by
    simp [known, List.filter_map, Function.comp_def]
  rw [hkeys, List.nodup_iff_count_le_one]
  constructor
  · intro h k
    by_cases hk : k ∈ keys
    · rw [List.count_filter (by simpa using hk)]
      exact h k hk
    · rw [List.count_eq_zero_of_not_mem (by simp [hk])]
      omega
  · intro h k hk
    rw [← List.count_filter (p := (· ∈ keys)) (by simpa using hk)]
    exact h k

theorem decodeEntries_eq_ok_iff (entries : List Entry) (seen : List String)
    (start config : GlobalConfig) :
    decodeEntries d seen start (entries.map fun e => (e.nodes.1.map f, e.nodes.2.map f)) =
        .ok config ↔
      (∀ k ∈ (known entries).map (·.1), k ∉ seen) ∧ ((known entries).map (·.1)).Nodup ∧
        Decoded (known entries) start config := by
  induction entries generalizing seen start with
  | nil =>
    simp only [known, List.filter_nil, List.map_nil, decodeEntries, decoded_nil_iff]
    constructor
    · intro h
      obtain rfl := Except.ok.inj h
      simp
    · intro h
      rw [eq_of_fields h.2.2]
  | cons e rest ih =>
    have hkey : text? d ((Entry.nodes e).1.map f) = some e.key := by
      simp [Entry.nodes, text?, Document.resolve]
    have hvalue : (Entry.nodes e).2 = e.value := rfl
    rw [List.map_cons, decodeEntries, hkey, hvalue]
    by_cases hk : e.key ∈ keys
    · obtain ⟨field, hfield⟩ := exists_field hk
      obtain ⟨set, hset, hsets⟩ := setter?_of_mem d f hfield
      have hresult := hsets e.bare start
      simp only [hset, known_cons_of_mem hk, List.map_cons, List.forall_mem_cons, List.nodup_cons]
      by_cases hseen : e.key ∈ seen
      · simp [hseen]
      · rw [if_neg hseen]
        by_cases hrest : e.key ∈ (known rest).map (·.1)
        · -- A later repeat is refused, whether or not this entry is decoded.
          have hrepeated : ¬ ∀ k ∈ (known rest).map (·.1), k ∉ e.key :: seen :=
            fun h => h e.key hrest List.mem_cons_self
          cases set d (e.value.map f) start with
          | none => simp [hrest]
          | some next => simp only [ih, hrepeated, hrest, not_true, false_and, and_false]
        · have hfresh : (∀ k ∈ (known rest).map (·.1), k ∉ e.key :: seen) ↔
              ∀ k ∈ (known rest).map (·.1), k ∉ seen := by
            refine forall₂_congr fun k hmem => ?_
            have hne : k ≠ e.key := fun heq => hrest (heq ▸ hmem)
            simp [hne]
          rw [decoded_cons_iff hfield hrest hresult]
          cases set d (e.value.map f) start with
          | none => simp
          | some next =>
            simp only [ih, hfresh, hseen, hrest, Option.some.injEq, exists_eq_left',
              not_false_eq_true, true_and]
    · simp only [setter?_of_notMem hk, known_cons_of_notMem hk]
      exact ih seen start

theorem mem_known {entries : List Entry} {pair : String × Node String} :
    pair ∈ known entries ↔ ∃ e ∈ entries, e.key ∈ keys ∧ (e.key, e.value) = pair := by
  simp [known, and_assoc]

theorem keys_known_subset (entries : List Entry) :
    (known entries).map (·.1) ⊆ entries.map (·.key) := by
  intro k hk
  obtain ⟨pair, hpair, rfl⟩ := List.mem_map.mp hk
  obtain ⟨e, he, -, rfl⟩ := mem_known.mp hpair
  exact List.mem_map_of_mem he

theorem exists_decoded {entries : List Entry} (hn : ((known entries).map (·.1)).Nodup)
    (h : ∀ e ∈ known entries, ∃ v, Decodes e.1 e.2 v) (start : GlobalConfig) :
    ∃ config, Decoded (known entries) start config := by
  induction entries generalizing start with
  | nil => exact ⟨start, decoded_nil_iff.mpr fun _ _ => rfl⟩
  | cons e rest ih =>
    by_cases hk : e.key ∈ keys
    · rw [known_cons_of_mem hk] at hn h ⊢
      obtain ⟨hrest, hn⟩ := List.nodup_cons.mp hn
      obtain ⟨⟨v, hv⟩, h⟩ := List.forall_mem_cons.mp h
      obtain ⟨field, hfield⟩ := exists_field hk
      obtain ⟨set, -, hsets⟩ := setter?_of_mem ⟨.empty, []⟩ (fun _ => 0) hfield
      have hresult := hsets e.bare start
      obtain ⟨next, hnext, -⟩ := hresult.accepts hv
      obtain ⟨config, hconfig⟩ := ih hn h next
      exact ⟨config, (decoded_cons_iff hfield hrest hresult).mpr ⟨next, hnext, hconfig⟩⟩
    · rw [known_cons_of_notMem hk] at hn h ⊢
      exact ih hn h start

end Entries

/-- A mapping is decoded if no known key is repeated and each known entry is decoded for itself. -/
theorem ofDocuments_eq_ok_iff (entries : List Entry) (config : GlobalConfig) :
    ofDocuments [mappingOf entries] = .ok config ↔
      Once entries ∧ Decoded (known entries) {} config := by
  have hbare : (mappingOf entries).Bare := by
    refine .mapping ?_ ?_
    · intro nodes hnodes
      obtain ⟨e, -, rfl⟩ := List.mem_map.mp hnodes
      exact .scalar e.style e.key
    · intro nodes hnodes
      obtain ⟨e, -, rfl⟩ := List.mem_map.mp hnodes
      exact e.bare
  let next : Node.Names → Nat := fun names => (names.map (·.1)).eraseDups.length
  have hnumber := hbare.number_eq next (fun _ => 0) []
  have hroot : (mappingOf entries).map (fun _ => 0) = .mapping {} (entries.map fun e =>
      (e.nodes.1.map (fun _ => 0), e.nodes.2.map (fun _ => 0))) := by
    simp [mappingOf, Function.comp_def]
  rw [ofDocuments, Document.ofNode?, hnumber, hroot]
  simp only [Option.map_some, decode, decodeEntries_eq_ok_iff, once_iff]
  simp

end GlobalConfig

open GlobalConfig

namespace Session

def HasMapping (σ : Session) (path : Path) (entries : List Entry) : Prop :=
  ∃ text : String, σ.files.read path = .ok text.toUTF8 ∧
    Yaml.V11.documents text.toList = .ok [mappingOf entries]

def Loads (σ : Session) (path : Path) (config : GlobalConfig) : Prop :=
  ∃ bytes, (σ.ask (.load path)).1 = .ok (config, bytes)

def Rejects (σ : Session) (path : Path) : Prop :=
  ∃ fault, (σ.ask (.load path)).1 = .error (.malformedConfig path fault)

structure LoadsByKeys (σ : Session) (path : Path) (entries : List Entry) : Prop where
  decided : (∃ config, σ.Loads path config) ∨ σ.Rejects path
  repeated : ¬ Once entries → σ.Rejects path
  loads_iff : Once entries → ((∃ config, σ.Loads path config) ↔
    ∀ e ∈ entries, e.key ∈ keys → ∃ v, Decodes e.key e.value v)
  told {config : GlobalConfig} : σ.Loads path config → ∀ e ∈ entries, ∀ field,
    (e.key, field) ∈ fields → Decodes e.key e.value (field config)
  untold {config : GlobalConfig} : σ.Loads path config → ∀ f ∈ fields,
    f.1 ∉ entries.map (·.key) → f.2 config = .flag false ∨ f.2 config = .list []
  same {τ : Session} {path' : Path} {entries' : List Entry} : τ.HasMapping path' entries' →
    (known entries).Perm (known entries') →
      (∀ config, σ.Loads path config ↔ τ.Loads path' config) ∧
        (σ.Rejects path ↔ τ.Rejects path')

theorem ask_load (σ : Session) (path : Path) :
    (σ.ask (.load path)).1 = Build.contents σ.files path := by
  have hon : σ.ask (.load path) = _ := perform_of_on (Build.loadConfig_on σ.files path σ.ledger)
  rw [hon]

section

variable {σ : Session} {path : Path} {entries : List Entry} (h : σ.HasMapping path entries)
include h

theorem HasMapping.load_eq : ∃ bytes, (σ.ask (.load path)).1 =
    match ofDocuments [mappingOf entries] with
    | .ok config => .ok (config, bytes)
    | .error fault => .error (.malformedConfig path fault) := by
  obtain ⟨text, hread, hdocuments⟩ := h
  have hbytes : String.fromUTF8? text.toUTF8 = some text := dif_pos text.isValidUTF8
  refine ⟨text.toUTF8, ?_⟩
  rw [ask_load, Build.contents, hread]
  simp only [ofBytes, hbytes, ofText, hdocuments]
  cases ofDocuments [mappingOf entries] <;> rfl

theorem HasMapping.loads_iff (config : GlobalConfig) :
    σ.Loads path config ↔ Once entries ∧ Decoded (known entries) {} config := by
  obtain ⟨bytes, hload⟩ := h.load_eq
  rw [← ofDocuments_eq_ok_iff, Loads, hload]
  cases ofDocuments [mappingOf entries] <;> simp

theorem HasMapping.rejects_iff : σ.Rejects path ↔ ¬ ∃ config, σ.Loads path config := by
  obtain ⟨bytes, hload⟩ := h.load_eq
  rw [Rejects]
  simp only [Loads, hload]
  cases ofDocuments [mappingOf entries] <;> simp

/-- Of the entries of a file only the known ones are looked at, each for its own field. -/
theorem loads_by_keys : σ.LoadsByKeys path entries where
  decided := by
    rw [h.rejects_iff]
    exact Classical.em _
  repeated hn := by
    rw [h.rejects_iff]
    rintro ⟨config, hconfig⟩
    exact hn ((h.loads_iff config).mp hconfig).1
  loads_iff honce := by
    constructor
    · rintro ⟨config, hconfig⟩ e he hk
      obtain ⟨-, hdecoded⟩ := (h.loads_iff config).mp hconfig
      obtain ⟨field, hfield⟩ := exists_field hk
      exact ⟨_, hdecoded.told _ hfield e.value (mem_known.mpr ⟨e, he, hk, rfl⟩)⟩
    · intro hall
      obtain ⟨config, hdecoded⟩ := exists_decoded ((once_iff entries).mp honce) (by
        intro pair hpair
        obtain ⟨e, he, hk, rfl⟩ := mem_known.mp hpair
        exact hall e he hk) {}
      exact ⟨config, (h.loads_iff config).mpr ⟨honce, hdecoded⟩⟩
  told hconfig e he field hfield := by
    obtain ⟨-, hdecoded⟩ := (h.loads_iff _).mp hconfig
    have hk : e.key ∈ keys := List.mem_map_of_mem hfield
    exact hdecoded.told _ hfield e.value (mem_known.mpr ⟨e, he, hk, rfl⟩)
  untold hconfig f hf hk := by
    obtain ⟨-, hdecoded⟩ := (h.loads_iff _).mp hconfig
    have hdefault : ∀ f ∈ fields, f.2 {} = .flag false ∨ f.2 {} = .list [] := by simp [fields]
    rw [hdecoded.untold f hf fun hmem => hk (keys_known_subset _ hmem)]
    exact hdefault f hf
  same {τ path' entries'} h' hperm := by
    have hsame (config : GlobalConfig) : σ.Loads path config ↔ τ.Loads path' config := by
      rw [h.loads_iff, h'.loads_iff, once_iff, once_iff, (hperm.map _).nodup_iff]
      exact and_congr_right fun _ => ⟨.of_perm hperm, .of_perm hperm.symm⟩
    refine ⟨hsame, ?_⟩
    rw [h.rejects_iff, h'.rejects_iff]
    simp only [hsame]

end

theorem documents_of_tokens {text : List Char} {ts : List Yaml.Token}
    (h : (Yaml.V11.tokens text).toOption = some ts) :
    Yaml.V11.documents text = Yaml.documents Yaml.V11.grammar ts := by
  rw [Yaml.V11.documents]
  cases htokens : Yaml.V11.tokens text with
  | error e => simp [htokens, Except.toOption] at h
  | ok ts' =>
    obtain rfl : ts' = ts := by simpa [htokens, Except.toOption] using h
    rfl

theorem loads_by_keys_reordered :
    let text := "Other: \x7bx: [1]\x7d\nBootJars: [b]\nOther:\nDisablePreopt: True"
    let text' := "DisablePreopt: True\nBootJars: [b]"
    let entries : List Entry :=
      [⟨.plain, "Other", .mapping {} [(.scalar {} .plain "x", .sequence {} [.scalar {} .plain "1"])],
          .mapping (by simp [Node.Bare.scalar]) (by simp [Node.Bare.sequence, Node.Bare.scalar])⟩,
        ⟨.plain, "BootJars", .sequence {} [.scalar {} .plain "b"],
          .sequence (by simp [Node.Bare.scalar])⟩,
        ⟨.plain, "Other", .scalar {} .plain "", .scalar _ _⟩,
        ⟨.plain, "DisablePreopt", .scalar {} .plain "True", .scalar _ _⟩]
    let entries' : List Entry :=
      [⟨.plain, "DisablePreopt", .scalar {} .plain "True", .scalar _ _⟩,
        ⟨.plain, "BootJars", .sequence {} [.scalar {} .plain "b"],
          .sequence (by simp [Node.Bare.scalar])⟩]
    let σ := start {} { entries := [(["dexpreopt.config"], some text.toUTF8)] }
    let τ := start {} { entries := [(["dexpreopt.config"], some text'.toUTF8)] }
    let config : GlobalConfig := { disablePreopt := true, bootJars := ["b"] }
    σ.HasMapping ⟨"dexpreopt.config"⟩ entries ∧ τ.HasMapping ⟨"dexpreopt.config"⟩ entries' ∧
      (known entries).Perm (known entries') ∧ σ.LoadsByKeys ⟨"dexpreopt.config"⟩ entries ∧
      σ.Loads ⟨"dexpreopt.config"⟩ config ∧ τ.Loads ⟨"dexpreopt.config"⟩ config := by
  intro text text' entries entries' σ τ config
  have htokens : (Yaml.V11.tokens text.toList).toOption = some
      [.blockMapping, .key, .scalar .plain "Other", .value, .flowMapping, .key, .scalar .plain "x",
        .value, .flowSequence, .scalar .plain "1", .flowSequenceEnd, .flowMappingEnd, .key,
        .scalar .plain "BootJars", .value, .flowSequence, .scalar .plain "b", .flowSequenceEnd,
        .key, .scalar .plain "Other", .value, .key, .scalar .plain "DisablePreopt", .value,
        .scalar .plain "True", .blockEnd] := by decide +kernel
  have htokens' : (Yaml.V11.tokens text'.toList).toOption = some
      [.blockMapping, .key, .scalar .plain "DisablePreopt", .value, .scalar .plain "True", .key,
        .scalar .plain "BootJars", .value, .flowSequence, .scalar .plain "b", .flowSequenceEnd,
        .blockEnd] := by decide +kernel
  have hσ : σ.HasMapping ⟨"dexpreopt.config"⟩ entries :=
    ⟨text, rfl, (documents_of_tokens htokens).trans rfl⟩
  have hτ : τ.HasMapping ⟨"dexpreopt.config"⟩ entries' :=
    ⟨text', rfl, (documents_of_tokens htokens').trans rfl⟩
  have hperm : (known entries).Perm (known entries') := List.Perm.swap _ _ _
  have hparsed : ofBytes text.toUTF8 = .ok config := by decide +kernel
  have hloads : σ.Loads ⟨"dexpreopt.config"⟩ config := by
    refine ⟨text.toUTF8, ?_⟩
    rw [ask_load]
    exact (Build.contents_eq_ok_iff σ.files).mpr ⟨rfl, hparsed⟩
  have hkeys := loads_by_keys hσ
  exact ⟨hσ, hτ, hperm, hkeys, hloads, ((hkeys.same hτ hperm).1 config).mp hloads⟩

end Session

end Preopt
