import Mathlib.Data.Bool.AllAny
import Preopt.Proofs.Json.Grammar
import Preopt.Yaml.V11

/-! How YAML 1.1 scans the pieces of a portable text: the whitespace between tokens, the strings and
the flags. What is left of a text is known by the place where it stands. -/

namespace Preopt.Json

open Yaml Yaml.V11

def Stands (line col : Nat) (cs : List Char) (s : List Placed) : Prop :=
  ∃ fresh, s = placeFrom breakAs line col fresh cs

theorem placeFrom_of_ordinary {c : Char} (h : breakAs c = none) (line col : Nat) (fresh : Bool)
    (cs : List Char) :
    placeFrom breakAs line col fresh (c :: cs) =
      ⟨c, line, col, false, fresh⟩ :: placeFrom breakAs line (col + 1) (fresh && isBlank c) cs := by
  have hc : c ≠ '\r' := by
    rintro rfl
    exact absurd h (by decide)
  rw [placeFrom]
  · simp only [h]
  · rintro rest rfl
    exact absurd rfl hc

namespace Stands

variable {line col : Nat} {c : Char} {cs rest gap : List Char} {s : List Placed}

theorem cons (hc : breakAs c = none) (h : Stands line col (c :: cs) s) :
    ∃ fresh s', s = ⟨c, line, col, false, fresh⟩ :: s' ∧ Stands line (col + 1) cs s' := by
  obtain ⟨fresh, rfl⟩ := h
  exact ⟨fresh, _, placeFrom_of_ordinary hc line col fresh cs, _, rfl⟩

theorem tail (hc : breakAs c = none) (h : Stands line col (c :: cs) s) :
    Stands line (col + 1) cs (s.drop 1) := by
  obtain ⟨fresh, s', rfl, hs'⟩ := h.cons hc
  exact hs'

theorem peek_eq (hc : breakAs c = none) (h : Stands line col (c :: cs) s) :
    ∃ fresh, peek s 0 = ⟨c, line, col, false, fresh⟩ := by
  obtain ⟨fresh, s', rfl, -⟩ := h.cons hc
  exact ⟨fresh, rfl⟩

theorem nil (h : Stands line col [] s) : ∃ fresh, s = [⟨nul, line, col, false, fresh⟩] := h

/-- A line feed after a carriage return belongs to the same break. -/
theorem lineBreak (hc : c = '\n' ∨ c = '\r') (h : Stands line col (c :: cs) s) :
    ∃ fresh s' cs', s = ⟨'\n', line, col, true, fresh⟩ :: s' ∧ Stands (line + 1) 0 cs' s' ∧
      (cs' = cs ∨ cs = '\n' :: cs') := by
  obtain ⟨fresh, rfl⟩ := h
  have hb : breakAs c = some '\n' := by
    rcases hc with rfl | rfl <;> rfl
  rw [placeFrom.eq_def]
  split
  · next heq => cases heq
  · next cs' heq =>
    obtain ⟨-, hcs⟩ := List.cons.inj heq
    exact ⟨fresh, _, cs', rfl, ⟨_, rfl⟩, .inr hcs⟩
  · next c' cs' _ heq =>
    obtain ⟨rfl, rfl⟩ := List.cons.inj heq
    simp only [hb]
    exact ⟨fresh, _, cs, rfl, ⟨_, rfl⟩, .inl rfl⟩

theorem append (hcs : ∀ x ∈ cs, breakAs x = none) (h : Stands line col (cs ++ rest) s) :
    ∃ s₁ s₂, s = s₁ ++ s₂ ∧ s₁.map (·.char) = cs ∧ (∀ p ∈ s₁, p.isBreak = false) ∧
      Stands line (col + cs.length) rest s₂ := by
  induction cs generalizing col s with
  | nil => exact ⟨[], s, rfl, rfl, List.forall_mem_nil _, h⟩
  | cons x cs ih =>
    obtain ⟨hx, hcs⟩ := List.forall_mem_cons.mp hcs
    obtain ⟨fresh, s', rfl, hs'⟩ := h.cons hx
    obtain ⟨s₁, s₂, rfl, hchars, hnone, hs₂⟩ := ih hcs hs'
    refine ⟨_ :: s₁, s₂, rfl, by rw [List.map_cons, hchars],
      List.forall_mem_cons.mpr ⟨rfl, hnone⟩, ?_⟩
    rwa [List.length_cons, Nat.add_comm cs.length, ← Nat.add_assoc]

end Stands

theorem breakAs_of_mem_blanks : ∀ c ∈ blanks, breakAs c = none :=
  List.all_iff_forall_prop.mp (by decide)

theorem lineBreak_of_mem_whitespace : ∀ c ∈ whitespace, c ∉ blanks → c = '\n' ∨ c = '\r' :=
  List.all_iff_forall_prop.mp (by decide)

def IsSpacing (gap : List Char) (p : Placed) : Prop :=
  p.isBreak = true ∨ (p.isBreak = false ∧ p.char ∈ blanks ∧ p.char ∈ gap)

theorem IsSpacing.mono {gap gap' : List Char} {p : Placed} (h : IsSpacing gap p)
    (hsub : gap ⊆ gap') : IsSpacing gap' p :=
  h.imp_right fun ⟨hbreak, hblank, hmem⟩ => ⟨hbreak, hblank, hsub hmem⟩

/-- Whitespace in front of anything but a line feed, which would belong to a break before it. -/
theorem Stands.whitespace {line col : Nat} {gap cs : List Char} {s : List Placed}
    (hgap : gap ⊆ whitespace) (hcs : cs.head? ≠ some '\n') (h : Stands line col (gap ++ cs) s) :
    ∃ line' col' s₁ s₂, s = s₁ ++ s₂ ∧ (∀ p ∈ s₁, IsSpacing gap p) ∧ Stands line' col' cs s₂ := by
  induction hn : gap.length using Nat.strongRecOn generalizing gap line col s with
  | _ n ih =>
    subst hn
    match gap with
    | [] => exact ⟨line, col, [], s, rfl, List.forall_mem_nil _, h⟩
    | x :: gap =>
      obtain ⟨hx, hgap⟩ := List.cons_subset.mp hgap
      -- the rest of the gap after `p`, which a pair of characters may have given
      have hstep : ∀ {line' col' gap' p s'}, gap'.length < (x :: gap).length → gap' ⊆ gap →
          IsSpacing (x :: gap) p → Stands line' col' (gap' ++ cs) s' →
          ∃ line'' col'' s₁ s₂, p :: s' = s₁ ++ s₂ ∧ (∀ q ∈ s₁, IsSpacing (x :: gap) q) ∧
            Stands line'' col'' cs s₂ := by
        intro line' col' gap' p s' hlt hsub hp hs'
        obtain ⟨l, k, s₁, s₂, rfl, hs₁, hs₂⟩ := ih _ hlt (List.Subset.trans hsub hgap) hs' rfl
        have hmono : gap' ⊆ x :: gap := List.Subset.trans hsub (List.subset_cons_self x gap)
        exact ⟨l, k, p :: s₁, s₂, rfl,
          List.forall_mem_cons.mpr ⟨hp, fun q hq => (hs₁ q hq).mono hmono⟩, hs₂⟩
      by_cases hblank : x ∈ blanks
      · obtain ⟨fresh, s', rfl, hs'⟩ := Stands.cons (breakAs_of_mem_blanks x hblank) h
        exact hstep (Nat.lt_succ_self _) (List.Subset.refl _)
          (.inr ⟨rfl, hblank, List.mem_cons_self⟩) hs'
      · obtain ⟨fresh, s', rest, rfl, hs', rfl | hrest⟩ :=
          Stands.lineBreak (lineBreak_of_mem_whitespace x hx hblank) h
        · exact hstep (Nat.lt_succ_self _) (List.Subset.refl _) (.inl rfl) hs'
        · match gap, hrest with
          | [], hrest => exact absurd (congrArg List.head? hrest) hcs
          | y :: gap, hrest =>
            obtain ⟨-, rfl⟩ := List.cons.inj hrest
            exact hstep (Nat.lt_add_right 1 (Nat.lt_succ_self _)) (List.subset_cons_self y gap)
              (.inl rfl) hs'

section Whitespace

variable {inFlow keyAllowed : Bool} {gap : List Char} {s₁ s₂ : List Placed}

/-- Breaks outside flow collections allow a key, after which a tab is not passed over. -/
theorem skipToToken_append (inFlow keyAllowed : Bool) (s₂ : List Placed)
    (hs₁ : ∀ p ∈ s₁, IsSpacing gap p) (htabs : '\t' ∈ gap → inFlow = true) :
    ∃ keyAllowed', (inFlow = true → keyAllowed' = keyAllowed) ∧
      skipToToken inFlow keyAllowed false (s₁ ++ s₂) =
        skipToToken inFlow keyAllowed' false s₂ := by
  induction s₁ generalizing keyAllowed with
  | nil => exact ⟨keyAllowed, fun _ => rfl, rfl⟩
  | cons p s₁ ih =>
    obtain ⟨hp, hs₁⟩ := List.forall_mem_cons.mp hs₁
    rw [List.cons_append, skipToToken]
    rcases hp with hbreak | ⟨hbreak, hblank, hmem⟩
    · rw [if_pos hbreak]
      obtain ⟨keyAllowed', hkey, heq⟩ := ih (keyAllowed || !inFlow) hs₁
      exact ⟨keyAllowed', fun h => (hkey h).trans (by simp [h]), heq⟩
    · obtain ⟨keyAllowed', hkey, heq⟩ := ih keyAllowed hs₁
      refine ⟨keyAllowed', hkey, Eq.trans ?_ heq⟩
      have hflow : p.char = '\t' → inFlow = true := fun h => htabs (h ▸ hmem)
      simp only [blanks, List.mem_cons, List.not_mem_nil, or_false] at hblank
      rcases hblank with hchar | hchar
      · simp [hbreak, Placed.isEnd, nul, hchar]
      · simp [hbreak, Placed.isEnd, nul, hchar, hflow hchar]

theorem skipToToken_blanks (hs₁ : ∀ p ∈ s₁, p.isBreak = false ∧ p.char ∈ blanks) :
    skipToToken inFlow false false (s₁ ++ s₂) = skipToToken inFlow false false s₂ := by
  induction s₁ with
  | nil => rfl
  | cons p s₁ ih =>
    obtain ⟨⟨hbreak, hblank⟩, hs₁⟩ := List.forall_mem_cons.mp hs₁
    rw [List.cons_append, skipToToken, ← ih hs₁]
    simp only [blanks, List.mem_cons, List.not_mem_nil, or_false] at hblank
    rcases hblank with hchar | hchar <;> simp [hbreak, Placed.isEnd, nul, hchar]

def starts : List Char := ['"', '[', ']', '\x7b', '\x7d', ',', ':', 't', 'f']

theorem starts_spec : ∀ c ∈ starts,
    breakAs c = none ∧ c ≠ nul ∧ c ≠ '#' ∧ c ≠ ' ' ∧ c ≠ '\t' ∧ c ≠ '%' ∧ c ≠ '-' ∧ c ≠ '.' :=
  List.all_iff_forall_prop.mp (by decide)

theorem skipToToken_start {line col : Nat} {c : Char} {cs : List Char} {s : List Placed}
    (hc : c ∈ starts) (h : Stands line col (c :: cs) s) :
    skipToToken inFlow keyAllowed false s = (keyAllowed, s) := by
  obtain ⟨hbreak, hnul, hhash, hspace, htab, -⟩ := starts_spec c hc
  obtain ⟨fresh, s', rfl, -⟩ := h.cons hbreak
  simp [skipToToken, Placed.isEnd, hnul, hhash, hspace, htab]

theorem skipToToken_end {line col : Nat} {s : List Placed} (h : Stands line col [] s) :
    skipToToken inFlow keyAllowed false s = (keyAllowed, s) := by
  obtain ⟨fresh, rfl⟩ := h.nil
  simp [skipToToken, Placed.isEnd]

end Whitespace

section Strings

theorem digit?_of_hexDigit {d : Char} {n : Nat} (h : HexDigit d n) : digit? 16 d = some n := by
  obtain ⟨hn, hd⟩ := h
  revert d
  simp only [forall_eq_or_imp, forall_eq]
  revert n
  decide

theorem hexValue?_of_codeUnit {digits : List Char} {n : Nat} (h : CodeUnit digits n) :
    hexValue? digits = some n := by
  cases h with
  | digits ha hb hc hd =>
    simp [hexValue?, digit?_of_hexDigit ha, digit?_of_hexDigit hb, digit?_of_hexDigit hc,
      digit?_of_hexDigit hd]

theorem ofCode?_toNat (c : Char) : ofCode? c.toNat = some c := by
  have hvalid : c.toNat.isValidChar := c.valid
  rw [ofCode?, dif_pos hvalid]
  rfl

theorem bare_spec {c : Char} {text : List Char} (h : Bare c text) (hread : Rules.IsReadable c) :
    breakAs c = none ∧ c ≠ nul ∧ isAllowed c = true := by
  cases h with
  | char printed _ _ =>
    have hlow : ' '.toNat ≤ c.toNat := printed
    have hvalid : c.toNat.isValidChar := c.valid
    obtain ⟨hband, hnot⟩ := hread
    simp only [List.mem_cons, List.not_mem_nil, or_false, not_or] at hnot
    refine ⟨?_, ?_, ?_⟩
    · have hne : c ≠ '\n' ∧ c ≠ '\r' ∧ c ≠ '\u0085' ∧ c ≠ '\u2028' ∧ c ≠ '\u2029' := by
        refine ⟨?_, ?_, ?_, ?_, ?_⟩ <;> rintro rfl <;> simp at hlow hband hnot
      simp [breakAs, hne]
    · rintro rfl
      exact absurd hlow (by decide)
    · have hle (a b : Char) : a ≤ b ↔ a.toNat ≤ b.toNat := Iff.rfl
      simp only [Nat.isValidChar] at hvalid
      simp only [Char.reduceToNat] at hlow
      simp only [isAllowed, Bool.or_eq_true, Bool.and_eq_true, decide_eq_true_eq, hle,
        Char.reduceToNat]
      omega

theorem hexDigit_spec {d : Char} {n : Nat} (h : HexDigit d n) :
    breakAs d = none ∧ isAllowed d = true := by
  obtain ⟨hn, hd⟩ := h
  revert d
  simp only [forall_eq_or_imp, forall_eq]
  revert n
  decide

theorem CodeUnit.length_eq {digits : List Char} {n : Nat} (h : CodeUnit digits n) :
    digits.length = 4 := by
  cases h
  rfl

theorem CodeUnit.spec {digits : List Char} {n : Nat} (h : CodeUnit digits n) :
    ∀ x ∈ digits, breakAs x = none ∧ isAllowed x = true := by
  cases h with
  | digits ha hb hc hd =>
    simp [hexDigit_spec ha, hexDigit_spec hb, hexDigit_spec hc, hexDigit_spec hd]

theorem Escape.tail {c : Char} {text : List Char} (h : Escape c text) :
    ∃ tail, text = '\\' :: tail ∧ tail ≠ [] ∧
      ∀ x ∈ tail, breakAs x = none ∧ isAllowed x = true := by
  cases h with
  | @short e h =>
    have hspec : ∀ p ∈ shortEscapes, breakAs p.1 = none ∧ isAllowed p.1 = true :=
      List.all_iff_forall_prop.mp (by decide)
    exact ⟨_, rfl, by simp, List.forall_mem_singleton.mpr (hspec _ h)⟩
  | @unit digits h =>
    exact ⟨_, rfl, by simp, List.forall_mem_cons.mpr ⟨by decide, h.spec⟩⟩

theorem escape_append {c : Char} {tail : List Char} (h : Escape c ('\\' :: tail))
    {s₁ s₂ : List Placed} (hs₁ : s₁.map (·.char) = tail) :
    escape (s₁ ++ s₂) = .ok (c, tail.length) := by
  generalize htext : '\\' :: tail = text at h
  cases h with
  | @short e h =>
    obtain rfl := (List.cons.inj htext).2
    obtain ⟨p, rest, rfl, rfl, hrest⟩ := List.map_eq_cons_iff.mp hs₁
    obtain rfl := List.map_eq_nil_iff.mp hrest
    have hnamed : ∀ p ∈ shortEscapes, namedEscape? p.1 = some p.2 :=
      List.all_iff_forall_prop.mp (by decide)
    simp [escape, peek, hnamed _ h]
  | @unit digits h =>
    obtain rfl := (List.cons.inj htext).2
    obtain ⟨p, rest, rfl, hp, rfl⟩ := List.map_eq_cons_iff.mp hs₁
    have hvalue := hexValue?_of_codeUnit h
    have hlen : rest.length = 4 := by
      rw [← h.length_eq, List.length_map]
    have htake : (rest ++ s₂).take 4 = rest := by rw [← hlen, List.take_left]
    simp [escape, peek, hp, namedEscape?, codeLength, htake, hlen, hvalue, ofCode?_toNat]

variable {line col : Nat} {s : List Placed} {text : List Char} {gap : Gap}

theorem quoted_skip (s₁ s₂ : List Placed) :
    quoted false (-1) s₁.length text gap (s₁ ++ s₂) = quoted false (-1) 0 text gap s₂ := by
  induction s₁ with
  | nil => rfl
  | cons p s₁ ih => exact ih

theorem quoted_char {c : Char} {fresh : Bool} (hblank : isBlank c = false) (hnul : c ≠ nul)
    (hcol : 0 < col) :
    quoted false (-1) 0 text gap (⟨c, line, col, false, fresh⟩ :: s) =
      if c = '"' then .ok (gap.text ++ text, s)
      else if c = '\\' then
        if (peek s 0).isBreak then quoted false (-1) 1 (gap.text ++ text) .joined s
        else match escape s with
          | .ok (c, n) => quoted false (-1) n (c :: (gap.text ++ text)) {} s
          | .error e => .error e
      else quoted false (-1) 0 (c :: (gap.text ++ text)) {} s := by
  have hmarker : isMarker (⟨c, line, col, false, fresh⟩ :: s) = false := by
    simp [isMarker, isMarkerOf, peek, Nat.pos_iff_ne_zero.mp hcol]
  have hfar : ¬ ((col : Int) < -1) := by omega
  rw [quoted, if_neg (by simp [Placed.isBlank, hblank]), if_neg (by simp),
    if_neg (by simp [hmarker]), if_neg (by simp [Placed.isEnd, hnul]), if_neg hfar]
  rfl

/-- What one spelled character adds. Spaces stay in the gap until another character follows. -/
theorem quoted_spelling {c : Char} {spelled rest : List Char}
    (h : Rules.portable.spelling c spelled) (hcol : 0 < col) (hgap : gap.broken = false)
    (hs : Stands line col (spelled ++ rest) s) :
    ∃ s' text' gap', Stands line (col + spelled.length) rest s' ∧ gap'.broken = false ∧
      gap'.blanks ++ text' = c :: (gap.blanks ++ text) ∧
      quoted false (-1) 0 text gap s = quoted false (-1) 0 text' gap' s' := by
  rcases h with ⟨hbare, hread⟩ | hescape
  · obtain ⟨hnone, hnul, -⟩ := bare_spec hbare hread
    cases hbare with
    | char printed quote backslash =>
      obtain ⟨fresh, s', rfl, hs'⟩ := Stands.cons hnone hs
      by_cases hspace : c = ' '
      · subst hspace
        refine ⟨s', text, gap.blank ' ', hs', ?_, ?_, ?_⟩
        · simp [Gap.blank, hgap]
        · simp [Gap.blank, hgap]
        · simp [quoted, Placed.isBlank, isBlank]
      · have htab : c ≠ '\t' := by
          rintro rfl
          exact absurd printed (by decide)
        refine ⟨s', c :: (gap.text ++ text), {}, hs', rfl, ?_, ?_⟩
        · simp [Gap.text, hgap]
        · rw [quoted_char (by simp [isBlank, hspace, htab]) hnul hcol, if_neg quote,
            if_neg backslash]
  · obtain ⟨tail, rfl, hne, htail⟩ := hescape.tail
    obtain ⟨fresh, s', rfl, hs'⟩ := Stands.cons (by decide) hs
    obtain ⟨s₁, s₂, rfl, hchars, hnone, hs₂⟩ := hs'.append fun x hx => (htail x hx).1
    have hesc : escape (s₁ ++ s₂) = .ok (c, tail.length) := escape_append hescape hchars
    have hlen : tail.length = s₁.length := by rw [← hchars, List.length_map]
    have hfirst : (peek (s₁ ++ s₂) 0).isBreak = false := by
      cases s₁ with
      | nil => exact absurd hchars.symm hne
      | cons p s₁ => exact hnone p List.mem_cons_self
    refine ⟨s₂, c :: (gap.text ++ text), {}, ?_, rfl, ?_, ?_⟩
    · rwa [List.length_cons, Nat.add_comm tail.length, ← Nat.add_assoc]
    · simp [Gap.text, hgap]
    · rw [quoted_char (by decide) (by decide) hcol, if_neg (by decide), if_pos rfl, hfirst,
        if_neg Bool.false_ne_true, hesc, ← quoted_skip s₁ s₂, ← hlen]

theorem quoted_spelled (text : List Char) (gap : Gap) {cs body rest : List Char}
    (h : Spelled Rules.portable cs body) (hcol : 0 < col) (hgap : gap.broken = false)
    (hs : Stands line col (body ++ '"' :: rest) s) :
    ∃ s', Stands line (col + body.length + 1) rest s' ∧
      quoted false (-1) 0 text gap s = .ok (cs.reverse ++ (gap.blanks ++ text), s') := by
  induction h generalizing col s text gap with
  | nil =>
    obtain ⟨fresh, s', rfl, hs'⟩ := Stands.cons (by decide) hs
    refine ⟨s', hs', ?_⟩
    rw [quoted_char (by decide) (by decide) hcol, if_pos rfl, Gap.text, hgap]
    rfl
  | @cons c cs spelled body hspelled _ ih =>
    rw [List.append_assoc] at hs
    obtain ⟨s', text', gap', hs', hgap', htext, heq⟩ := quoted_spelling hspelled hcol hgap hs
    obtain ⟨s'', hs'', hquoted⟩ := ih text' gap' (Nat.add_pos_left hcol _) hgap' hs'
    refine ⟨s'', ?_, ?_⟩
    · rwa [List.length_append, ← Nat.add_assoc col]
    · rw [heq, hquoted, htext, List.reverse_cons, List.append_assoc]
      rfl

end Strings

section Flags

variable {text : List Char} {gap : Gap} {inWord : Bool} {s₁ s₂ : List Placed}

def letters : List Char := ['a', 'e', 'f', 'l', 'r', 's', 't', 'u']

theorem letters_spec : ∀ c ∈ letters,
    breakAs c = none ∧ isBlank c = false ∧ c ≠ nul ∧ c ≠ '#' ∧ c ≠ '-' ∧ c ≠ '.' ∧ c ≠ ':' ∧
      isFlow c = false :=
  List.all_iff_forall_prop.mp (by decide)

theorem plain_letters (text : List Char) (inWord : Bool) (s₂ : List Placed)
    (hs₁ : ∀ p ∈ s₁, p.isBreak = false ∧ p.char ∈ letters) :
    ∃ inWord', plain (plainRule true) true 0 text {} inWord false (s₁ ++ s₂) =
      plain (plainRule true) true 0 ((s₁.map (·.char)).reverse ++ text) {} inWord' false s₂ := by
  induction s₁ generalizing text inWord with
  | nil => exact ⟨inWord, rfl⟩
  | cons p s₁ ih =>
    obtain ⟨⟨hbreak, hletter⟩, hs₁⟩ := List.forall_mem_cons.mp hs₁
    obtain ⟨-, hblank, hnul, hhash, hdash, hdot, hcolon, hflow⟩ := letters_spec _ hletter
    obtain ⟨inWord', heq⟩ := ih (p.char :: text) true hs₁
    refine ⟨inWord', ?_⟩
    have hmarker : isMarker (p :: (s₁ ++ s₂)) = false := by
      simp [isMarker, isMarkerOf, peek, hdash, hdot]
    rw [List.cons_append, plain, List.map_cons, List.reverse_cons, List.append_assoc]
    simp only [Placed.isBlank, hblank, hbreak, hmarker, Placed.isEnd, beq_eq_false_iff_ne.mpr hnul,
      hhash, plainRule, beq_eq_false_iff_ne.mpr hcolon, hflow, Bool.false_eq_true, if_false,
      false_and, and_false, or_false, not_true, Bool.and_false, Bool.false_and, Bool.or_false]
    exact heq

theorem plain_gap (text : List Char) (gap : Gap) (inWord : Bool) (s₂ : List Placed)
    {spaces : List Char} (hs₁ : ∀ p ∈ s₁, IsSpacing spaces p) :
    ∃ inWord' gap', plain (plainRule true) true 0 text gap inWord false (s₁ ++ s₂) =
      plain (plainRule true) true 0 text gap' inWord' false s₂ := by
  induction s₁ generalizing gap inWord with
  | nil => exact ⟨inWord, gap, rfl⟩
  | cons p s₁ ih =>
    obtain ⟨hp, hs₁⟩ := List.forall_mem_cons.mp hs₁
    have hfar : ¬ ((p.col : Int) < 0) := by omega
    rw [List.cons_append, plain]
    simp only [Bool.false_eq_true, false_and, if_false, hfar, and_false]
    by_cases hblank : p.isBlank = true
    · rw [if_pos hblank]
      exact ih _ _ hs₁
    · have hbreak : p.isBreak = true := by
        refine hp.resolve_right fun ⟨_, hmem, _⟩ => hblank ?_
        simp only [blanks, List.mem_cons, List.not_mem_nil, or_false] at hmem
        simpa [Placed.isBlank, isBlank] using hmem
      rw [if_neg hblank, if_pos hbreak]
      exact ih _ _ hs₁

theorem plain_stop {line col : Nat} {c : Char} {cs : List Char} {s : List Placed}
    (hc : c = ',' ∨ c = '\x7d') (hs : Stands line col (c :: cs) s) :
    plain (plainRule true) true 0 text gap inWord false s = .ok ⟨text, gap, s⟩ := by
  rcases hc with rfl | rfl
  all_goals
    obtain ⟨fresh, s', rfl, -⟩ := Stands.cons (by decide) hs
    simp [plain, Placed.isBlank, isBlank, isMarker, isMarkerOf, peek, Placed.isEnd, nul, plainRule,
      isFlow]

theorem plain_flag (v : Bool) {line col : Nat} {spaces cs : List Char} {c : Char} {s : List Placed}
    (hgap : spaces ⊆ whitespace) (hc : c = ',' ∨ c = '\x7d')
    (hs : Stands line col (flagText v ++ (spaces ++ c :: cs)) s) :
    ∃ line' col' gap' s', Stands line' col' (c :: cs) s' ∧
      plain (plainRule true) true 0 [] {} false false s =
        .ok ⟨(flagText v).reverse, gap', s'⟩ := by
  have hletters : flagText v ⊆ letters := by
    cases v <;> decide
  obtain ⟨s₁, s₂, rfl, hchars, hnone, hs₂⟩ := hs.append fun c hc => (letters_spec c (hletters hc)).1
  have hc' : (c :: cs).head? ≠ some '\n' := by
    rcases hc with rfl | rfl <;> simp
  obtain ⟨line', col', s₃, s₄, rfl, hspacing, hs₄⟩ := hs₂.whitespace hgap hc'
  have hword : ∀ p ∈ s₁, p.isBreak = false ∧ p.char ∈ letters := fun p hp =>
    ⟨hnone p hp, hletters (hchars ▸ List.mem_map_of_mem hp)⟩
  obtain ⟨inWord₁, hplain₁⟩ := plain_letters [] false (s₃ ++ s₄) hword
  obtain ⟨inWord₂, gap₂, hplain₂⟩ :=
    plain_gap ((flagText v).reverse ++ []) {} inWord₁ s₄ hspacing
  refine ⟨line', col', gap₂, s₄, hs₄, ?_⟩
  rw [hplain₁, hchars, hplain₂, plain_stop hc hs₄, List.append_nil]

end Flags
end Preopt.Json
