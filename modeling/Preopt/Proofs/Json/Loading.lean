import Preopt.Proofs.Config.Keys
import Preopt.Proofs.Json.Parsing

/-! What a portable text is loaded as: the config that its members denote. Portable texts are JSON
texts of the same members, written under narrower rules. -/

namespace Preopt.Json

open Yaml

section Texts

open GlobalConfig

theorem bare_value (v : Value) : (valueNode v : Node String).Bare := by
  cases v with
  | flag v => exact .scalar _ _
  | list items =>
    refine .sequence fun item hitem => ?_
    obtain ⟨s, -, rfl⟩ := List.mem_map.mp hitem
    exact .scalar _ _

def entry (m : String × Value) : Entry := ⟨.doubleQuoted, m.1, valueNode m.2, bare_value m.2⟩

theorem textNode_eq (members : List (String × Value)) :
    textNode members = mappingOf (members.map entry) := by
  simp only [textNode, mappingOf, List.map_map]
  rfl

theorem decodes_flag {k : String} (hk : k ∈ flagKeys) (v : Bool) :
    Decodes k (valueNode (.flag v)) (.flag v) := by
  cases v with
  | false => exact .off hk (by decide)
  | true => exact .on hk (by decide)

theorem decodes_list {k : String} (hk : k ∈ listKeys) (items : List String) :
    Decodes k (valueNode (.list items)) (.list items) := by
  refine .items hk ?_
  rw [List.forall₂_map_left_iff, List.forall₂_same]
  exact fun s _ => ⟨_, rfl⟩

theorem decodes_value {k : String} {field : GlobalConfig → Value} (h : (k, field) ∈ fields)
    (c : GlobalConfig) : Decodes k (valueNode (field c)) (field c) := by
  simp only [fields, List.mem_cons, List.not_mem_nil, or_false, Prod.mk.injEq] at h
  rcases h with ⟨rfl, rfl⟩ | ⟨rfl, rfl⟩ | ⟨rfl, rfl⟩ | ⟨rfl, rfl⟩ | ⟨rfl, rfl⟩ | ⟨rfl, rfl⟩ |
    ⟨rfl, rfl⟩ | ⟨rfl, rfl⟩
  iterate 2 exact decodes_flag (by decide) _
  all_goals exact decodes_list (by decide) _

variable {members : List (String × Value)} {c : GlobalConfig}

theorem decode_text (h : Denotes members c) :
    GlobalConfig.ofDocuments [textNode members] = .ok c := by
  have hkeys : (members.map entry).map (·.key) = members.map (·.1) := by simp [entry]
  rw [textNode_eq, ofDocuments_eq_ok_iff]
  refine ⟨fun k _ => ?_, fun f hf node hnode => ?_, fun f hf hk => h.untold f hf fun hmem => ?_⟩
  · rw [hkeys]
    exact List.nodup_iff_count_le_one.mp h.nodup k
  · obtain ⟨e, he, -, hpair⟩ := mem_known.mp hnode
    obtain ⟨m, hm, rfl⟩ := List.mem_map.mp he
    obtain ⟨hk, rfl⟩ : m.1 = f.1 ∧ valueNode m.2 = node := Prod.mk.inj hpair
    obtain ⟨field, hfield, hvalue⟩ := h.told m hm
    rw [hk] at hfield
    obtain rfl : f.2 = field := fields_unique hf hfield
    rw [← hvalue]
    exact decodes_value hf c
  · obtain ⟨m, hm, hmk⟩ := List.mem_map.mp hmem
    have hkey : (entry m).key = f.1 := hmk
    have hknown : ((entry m).key, (entry m).value) ∈ known (members.map entry) :=
      mem_known.mpr ⟨entry m, List.mem_map_of_mem hm, hkey ▸ List.mem_map_of_mem hf, rfl⟩
    rw [hkey] at hknown
    exact hk (List.mem_map_of_mem hknown)

theorem ofBytes_text {text : List Char} (htext : Text Rules.portable members text)
    (h : Denotes members c) : GlobalConfig.ofBytes (String.ofList text).toUTF8 = .ok c := by
  have hbytes : String.fromUTF8? (String.ofList text).toUTF8 = some (String.ofList text) :=
    dif_pos (String.ofList text).isValidUTF8
  rw [GlobalConfig.ofBytes, hbytes]
  simp only [GlobalConfig.ofText, V11.documents, String.toList_ofList, tokens_of_text htext,
    documents_textTokens]
  exact decode_text h

end Texts

theorem load_eq_ok_iff {σ : Session} {path : Path} {c : GlobalConfig} {bytes : ByteArray} :
    (σ.ask (.load path)).1 = .ok (c, bytes) ↔
      σ.files.read path = .ok bytes ∧ GlobalConfig.ofBytes bytes = .ok c := by
  rw [Session.ask_load]
  exact Build.contents_eq_ok_iff σ.files

/-- A file of a portable JSON text is loaded as the config that the text denotes, with the file's
own bytes. -/
theorem load_portable {members : List (String × Value)} {c : GlobalConfig} {text : List Char}
    {σ : Session} {path : Path} (htext : Text .portable members text) (h : Denotes members c)
    (hfile : σ.files.read path = .ok (String.ofList text).toUTF8) :
    Text .standard members text ∧
      (σ.ask (.load path)).1 = .ok (c, (String.ofList text).toUTF8) :=
  ⟨htext.standard, load_eq_ok_iff.mpr ⟨hfile, ofBytes_text htext h⟩⟩

theorem load_portable_escapes :
    let text := ("\x7b\n\t\"DisablePreopt\" : true,\r\n" ++
      "\"BootJars\":[\"core-oj\", \"\\u00E9\\/\"] \x7d\t\n").toList
    let members := [("DisablePreopt", Value.flag true), ("BootJars", Value.list ["core-oj", "é/"])]
    let c : GlobalConfig := { disablePreopt := true, bootJars := ["core-oj", "é/"] }
    let bytes := (String.ofList text).toUTF8
    let σ := Session.start {} { entries := [(["dexpreopt.config"], some bytes)] }
    Text .portable members text ∧ Denotes members c ∧ Text .standard members text ∧
      (σ.ask (.load ⟨"dexpreopt.config"⟩)).1 = .ok (c, bytes) := by
  intro text members c bytes σ
  have hflag : Member .portable ("DisablePreopt", .flag true)
      (['\n', '\t'] ++ ('"' :: "DisablePreopt".toList ++ ['"']) ++ [' '] ++
        ':' :: ([' '] ++ flagText true ++ [])) :=
    .pair ['\n', '\t'] [' '] (by decide) (.verbatim (by decide)) ⟨by decide, by decide⟩
      (.between [' '] [] (by decide) (.flag true) (by decide))
  have hcode : CodeUnit ['0', '0', 'E', '9'] 'é'.toNat :=
    .digits (i := 0) (j := 0) (k := 14) (l := 9) (by decide) (by decide) (by decide) (by decide)
  have hescaped : Quoted .portable "é/"
      ('"' :: ('\\' :: 'u' :: ['0', '0', 'E', '9'] ++ (['\\', '/'] ++ [])) ++ ['"']) :=
    .quotes (.cons (Or.inr (.unit hcode)) (.cons (Or.inr (.short (by decide))) .nil))
  have hitems : Written .portable (.list ["core-oj", "é/"]) _ :=
    .list (.full (.next
      (.between [] [] (by decide) (.verbatim (by decide)) (by decide))
      (.last (.between [' '] [] (by decide) hescaped (by decide)))))
  have hkey : Quoted .portable "BootJars" ('"' :: "BootJars".toList ++ ['"']) :=
    .verbatim (by decide)
  have hlist : Member .portable ("BootJars", .list ["core-oj", "é/"]) _ :=
    .pair ['\r', '\n'] [] (by decide) hkey ⟨by decide, by decide⟩
      (.between [] [' '] (by decide) hitems (by decide))
  have htext : Text .portable members text :=
    .object [] ['\t', '\n'] (List.nil_subset _)
      (.full (.next hflag (.last hlist))) ⟨['\t'], ['\n'], rfl, by decide, by decide⟩
  have hdenotes : Denotes members c := by
    refine ⟨by decide, ?_, by simp [fields, members, c]⟩
    simp [fields, members, c]
  exact ⟨htext, hdenotes, load_portable htext hdenotes rfl⟩

theorem pair_not_loaded :
    let text := "\x7b\"BootJars\": [\"\\ud83d\\ude00\"]\x7d".toList
    let members := [("BootJars", Value.list [String.singleton (Char.ofNat 0x1f600)])]
    let c : GlobalConfig := { bootJars := [String.singleton (Char.ofNat 0x1f600)] }
    let bytes := (String.ofList text).toUTF8
    let σ := Session.start {} { entries := [(["dexpreopt.config"], some bytes)] }
    Text .standard members text ∧ Denotes members c ∧
      (σ.ask (.load ⟨"dexpreopt.config"⟩)).1 ≠ .ok (c, bytes) := by
  intro text members c bytes σ
  have hspelling : Rules.standard.spelling (Char.ofNat 0x1f600)
      ('\\' :: 'u' :: ['d', '8', '3', 'd'] ++ '\\' :: 'u' :: ['d', 'e', '0', '0']) := by
    have hhigh : CodeUnit ['d', '8', '3', 'd'] 0xd83d :=
      .digits (i := 13) (j := 8) (k := 3) (l := 13) (by decide) (by decide) (by decide) (by decide)
    have hlow : CodeUnit ['d', 'e', '0', '0'] 0xde00 :=
      .digits (i := 13) (j := 14) (k := 0) (l := 0) (by decide) (by decide) (by decide) (by decide)
    exact Or.inr (Or.inr (.units (by decide) hhigh hlow))
  have hkey : Quoted .standard "BootJars" ('"' :: "BootJars".toList ++ ['"']) :=
    Quoted.mono Rules.portable_le_standard (.verbatim (by decide))
  have hlist : Member .standard ("BootJars", .list [String.singleton (Char.ofNat 0x1f600)]) _ :=
    .pair [] [] (by decide) hkey (List.nil_subset _)
      (.between [' '] [] (by decide) (.list (.full (.last
        (.between [] [] (by decide) (.quotes (.cons hspelling .nil))
          (by decide))))) (by decide))
  have htext : Text .standard members text :=
    .object [] [] (List.nil_subset _) (.full (.last hlist)) (List.nil_subset _)
  have hdenotes : Denotes members c := by
    refine ⟨by decide, ?_, by simp [fields, members, c]⟩
    simp [fields, members, c]
  have hfailed : GlobalConfig.ofBytes bytes ≠ .ok c := by decide +kernel
  exact ⟨htext, hdenotes, fun hload => hfailed (load_eq_ok_iff.mp hload).2⟩

end Preopt.Json
