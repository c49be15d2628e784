import Preopt.GlobalConfig

/-! JSON texts of a global config. A text is one object whose members name fields of the config by
their keys. A set of rules decides how a character of a string is written, and which whitespace may
stand around the object and between a key and its colon. Two sets share the grammar: the standard
one, and a narrower one for texts that are sure to mean the same when they are read as YAML 1.1. -/

namespace Preopt.Json

def blanks : List Char := [' ', '\t']

def whitespace : List Char := [' ', '\t', '\n', '\r']

def untabbed : List Char := [' ', '\n', '\r']

def shortEscapes : List (Char × Char) :=
  [('"', '"'), ('\\', '\\'), ('/', '/'), ('b', '\x08'), ('f', '\x0c'), ('n', '\n'), ('r', '\r'),
    ('t', '\t')]

def HexDigit (d : Char) (n : Nat) : Prop :=
  n < 16 ∧ (d = Nat.digitChar n ∨ d = (Nat.digitChar n).toUpper)

instance (d : Char) (n : Nat) : Decidable (HexDigit d n) :=
  inferInstanceAs (Decidable (n < 16 ∧ _))

inductive CodeUnit : List Char → Nat → Prop
  | digits {a b c d : Char} {i j k l : Nat} (ha : HexDigit a i) (hb : HexDigit b j)
      (hc : HexDigit c k) (hd : HexDigit d l) :
      CodeUnit [a, b, c, d] (16 * (16 * (16 * i + j) + k) + l)

inductive Bare : Char → List Char → Prop
  | char {c : Char} (printed : ' ' ≤ c) (quote : c ≠ '"') (backslash : c ≠ '\\') : Bare c [c]

inductive Escape : Char → List Char → Prop
  | short {c e : Char} (h : (e, c) ∈ shortEscapes) : Escape c ['\\', e]
  | unit {c : Char} {digits : List Char} (h : CodeUnit digits c.toNat) :
      Escape c ('\\' :: 'u' :: digits)

/-- A character outside the basic plane as two code units. -/
inductive Pair : Char → List Char → Prop
  | units {c : Char} {high low : List Char} (outside : 0x10000 ≤ c.toNat)
      (hhigh : CodeUnit high (0xd800 + (c.toNat - 0x10000) / 0x400))
      (hlow : CodeUnit low (0xdc00 + (c.toNat - 0x10000) % 0x400)) :
      Pair c ('\\' :: 'u' :: high ++ '\\' :: 'u' :: low)

structure Rules where
  spelling : Char → List Char → Prop
  before : List Char → Prop
  after : List Char → Prop
  colon : (key gap : List Char) → Prop

namespace Rules

def standard : Rules where
  spelling c text := Bare c text ∨ Escape c text ∨ Pair c text
  before gap := gap ⊆ whitespace
  after gap := gap ⊆ whitespace
  colon _ gap := gap ⊆ whitespace

def IsReadable (c : Char) : Prop :=
  (c.toNat ≤ 0x7e ∨ 0xa0 ≤ c.toNat) ∧ c.toNat ∉ [0x2028, 0x2029, 0xfffe, 0xffff]

instance : DecidablePred IsReadable := fun c =>
  inferInstanceAs (Decidable ((c.toNat ≤ 0x7e ∨ 0xa0 ≤ c.toNat) ∧ c.toNat ∉ _))

/-- No pairs, no tab where a line may start outside the object, and keys that are short and have
their colon on the same line. -/
def portable : Rules where
  spelling c text := (Bare c text ∧ IsReadable c) ∨ Escape c text
  before gap := gap ⊆ untabbed
  after gap := ∃ gap₁ gap₂, gap = gap₁ ++ gap₂ ∧ gap₁ ⊆ blanks ∧ gap₂ ⊆ untabbed
  colon key gap := gap ⊆ blanks ∧ key.length + gap.length ≤ 1024

end Rules

inductive Value
  | flag (v : Bool)
  | list (items : List String)
  deriving DecidableEq, Repr

def flagText (v : Bool) : List Char := if v then "true".toList else "false".toList

inductive Listed {α : Type} (one : α → List Char → Prop) : List α → List Char → Prop
  | last {a : α} {text : List Char} : one a text → Listed one [a] text
  | next {a : α} {as : List α} {text rest : List Char} :
      one a text → Listed one as rest → Listed one (a :: as) (text ++ ',' :: rest)

inductive Enclosed {α : Type} (start stop : Char) (one : α → List Char → Prop) :
    List α → List Char → Prop
  | empty {gap : List Char} : gap ⊆ whitespace → Enclosed start stop one [] (start :: gap ++ [stop])
  | full {as : List α} {text : List Char} :
      Listed one as text → Enclosed start stop one as (start :: text ++ [stop])

inductive Padded {α : Type} (one : α → List Char → Prop) : α → List Char → Prop
  | between {a : α} {text : List Char} (before after : List Char) (hbefore : before ⊆ whitespace)
      (h : one a text) (hafter : after ⊆ whitespace) : Padded one a (before ++ text ++ after)

section

variable (R : Rules)

inductive Spelled : List Char → List Char → Prop
  | nil : Spelled [] []
  | cons {c : Char} {cs text rest : List Char} :
      R.spelling c text → Spelled cs rest → Spelled (c :: cs) (text ++ rest)

inductive Quoted : String → List Char → Prop
  | quotes {s : String} {body : List Char} :
      Spelled R s.toList body → Quoted s ('"' :: body ++ ['"'])

inductive Written : Value → List Char → Prop
  | flag (v : Bool) : Written (.flag v) (flagText v)
  | list {items : List String} {text : List Char} :
      Enclosed '[' ']' (Padded (Quoted R)) items text → Written (.list items) text

inductive Member : String × Value → List Char → Prop
  | pair {k : String} {v : Value} {key value : List Char} (before gap : List Char)
      (hbefore : before ⊆ whitespace) (hkey : Quoted R k key) (hgap : R.colon key gap)
      (hvalue : Padded (Written R) v value) : Member (k, v) (before ++ key ++ gap ++ ':' :: value)

inductive Text : List (String × Value) → List Char → Prop
  | object {members : List (String × Value)} {text : List Char} (before after : List Char)
      (hbefore : R.before before) (h : Enclosed '\x7b' '\x7d' (Member R) members text)
      (hafter : R.after after) : Text members (before ++ text ++ after)

end

section Weaken

variable {α : Type} {one one' : α → List Char → Prop} {R R' : Rules}

theorem Listed.mono (hone : ∀ {a text}, one a text → one' a text) {as : List α} {text : List Char}
    (h : Listed one as text) : Listed one' as text := by
  induction h with
  | last ha => exact .last (hone ha)
  | next ha _ ih => exact .next (hone ha) ih

theorem Enclosed.mono (hone : ∀ {a text}, one a text → one' a text) {start stop : Char}
    {as : List α} {text : List Char} (h : Enclosed start stop one as text) :
    Enclosed start stop one' as text := by
  cases h with
  | empty hgap => exact .empty hgap
  | full hlisted => exact .full (hlisted.mono hone)

theorem Padded.mono (hone : ∀ {a text}, one a text → one' a text) {a : α} {text : List Char}
    (h : Padded one a text) : Padded one' a text := by
  cases h with
  | between before after hbefore ha hafter =>
    exact .between before after hbefore (hone ha) hafter

structure Rules.Le (R R' : Rules) : Prop where
  spelling : ∀ {c text}, R.spelling c text → R'.spelling c text
  before : ∀ {gap}, R.before gap → R'.before gap
  after : ∀ {gap}, R.after gap → R'.after gap
  colon : ∀ {key gap}, R.colon key gap → R'.colon key gap

variable (hle : R.Le R')
include hle

theorem Spelled.mono {cs text : List Char} (h : Spelled R cs text) : Spelled R' cs text := by
  induction h with
  | nil => exact .nil
  | cons hspelling _ ih => exact .cons (hle.spelling hspelling) ih

theorem Quoted.mono {s : String} {text : List Char} (h : Quoted R s text) : Quoted R' s text := by
  cases h with
  | quotes hbody => exact .quotes (hbody.mono hle)

theorem Written.mono {v : Value} {text : List Char} (h : Written R v text) : Written R' v text := by
  cases h with
  | flag v => exact .flag v
  | list h => exact .list (h.mono fun hitem => hitem.mono fun hquoted => hquoted.mono hle)

theorem Member.mono {m : String × Value} {text : List Char} (h : Member R m text) :
    Member R' m text := by
  cases h with
  | pair before gap hbefore hkey hgap hvalue =>
    exact .pair before gap hbefore (hkey.mono hle) (hle.colon hgap)
      (hvalue.mono fun h => h.mono hle)

theorem Text.mono {members : List (String × Value)} {text : List Char} (h : Text R members text) :
    Text R' members text := by
  cases h with
  | object before after hbefore h hafter =>
    exact .object before after (hle.before hbefore) (h.mono fun hmember => hmember.mono hle)
      (hle.after hafter)

end Weaken

theorem untabbed_subset_whitespace : untabbed ⊆ whitespace := by decide

theorem blanks_subset_whitespace : blanks ⊆ whitespace := by decide

theorem Rules.portable_le_standard : portable.Le standard where
  spelling h := h.elim (fun hbare => .inl hbare.1) fun hescape => .inr (.inl hescape)
  before h := List.Subset.trans h untabbed_subset_whitespace
  after := fun ⟨_, _, hgap, h₁, h₂⟩ => hgap ▸ List.append_subset.mpr
    ⟨List.Subset.trans h₁ blanks_subset_whitespace, List.Subset.trans h₂ untabbed_subset_whitespace⟩
  colon h := List.Subset.trans h.1 blanks_subset_whitespace

/-- A portable text is a JSON text of the same members. -/
theorem Text.standard {members : List (String × Value)} {text : List Char}
    (h : Text .portable members text) : Text .standard members text :=
  h.mono Rules.portable_le_standard

theorem Spelled.verbatim {cs : List Char}
    (h : ∀ c ∈ cs, ' ' ≤ c ∧ c ≠ '"' ∧ c ≠ '\\' ∧ Rules.IsReadable c) :
    Spelled .portable cs cs := by
  induction cs with
  | nil => exact .nil
  | cons c cs ih =>
    obtain ⟨⟨printed, quote, backslash, hread⟩, hcs⟩ := List.forall_mem_cons.mp h
    have hspelling : Rules.portable.spelling c [c] :=
      Or.inl ⟨.char printed quote backslash, hread⟩
    exact .cons hspelling (ih hcs)

theorem Quoted.verbatim {s : String}
    (h : s.toList.all (fun c => ' ' ≤ c ∧ c ≠ '"' ∧ c ≠ '\\' ∧ Rules.IsReadable c) = true) :
    Quoted .portable s ('"' :: s.toList ++ ['"']) :=
  .quotes (.verbatim fun c hc => of_decide_eq_true (List.all_eq_true.mp h c hc))

def fields : List (String × (GlobalConfig → Value)) :=
  [("DisablePreopt", fun c => .flag c.disablePreopt),
    ("DisableGenerateProfile", fun c => .flag c.disableGenerateProfile),
    ("ArtApexJars", fun c => .list c.artApexJars),
    ("BootJars", fun c => .list c.bootJars),
    ("ProductUpdatableBootModules", fun c => .list c.productUpdatableBootModules),
    ("ProductUpdatableBootLocations", fun c => .list c.productUpdatableBootLocations),
    ("SystemServerJars", fun c => .list c.systemServerJars),
    ("UpdatableSystemServerJars", fun c => .list c.updatableSystemServerJars)]

structure Denotes (members : List (String × Value)) (c : GlobalConfig) : Prop where
  nodup : (members.map (·.1)).Nodup
  told : ∀ m ∈ members, ∃ field, (m.1, field) ∈ fields ∧ field c = m.2
  untold : ∀ f ∈ fields, f.1 ∉ members.map (·.1) → f.2 c = f.2 {}

end Preopt.Json
