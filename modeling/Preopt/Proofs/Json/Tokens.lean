import Preopt.Proofs.Json.Lexing

/-! The tokens of a portable text. -/

namespace Preopt.Json

open Yaml Yaml.V11

section Spec

variable {α : Type}

def separated (tokens : α → List Token) : List α → List Token
  | [] => []
  | [a] => tokens a
  | a :: b :: rest => tokens a ++ .flowEntry :: separated tokens (b :: rest)

def itemTokens (s : String) : List Token := [.scalar .doubleQuoted s]

def valueTokens : Value → List Token
  | .flag v => [.scalar .plain (String.ofList (flagText v))]
  | .list items => .flowSequence :: separated itemTokens items ++ [.flowSequenceEnd]

def memberTokens (m : String × Value) : List Token :=
  [.key, .scalar .doubleQuoted m.1, .value] ++ valueTokens m.2

def textTokens (members : List (String × Value)) : List Token :=
  .flowMapping :: separated memberTokens members ++ [.flowMappingEnd]

theorem separated_cons (tokens : α → List Token) (a : α) {as : List α} (h : as ≠ []) :
    separated tokens (a :: as) = tokens a ++ .flowEntry :: separated tokens as := by
  cases as with
  | nil => exact absurd rfl h
  | cons b rest => rfl

theorem Listed.ne_nil {one : α → List Char → Prop} {as : List α} {text : List Char}
    (h : Listed one as text) : as ≠ [] := by
  cases h <;> exact List.cons_ne_nil _ _

theorem Enclosed.body {start stop : Char} {one : α → List Char → Prop} {as : List α}
    {text : List Char} (h : Enclosed start stop one as text) :
    ∃ body, text = start :: (body ++ [stop]) ∧
      (as = [] ∧ body ⊆ whitespace ∨ Listed one as body) := by
  cases h with
  | empty hgap => exact ⟨_, rfl, .inl ⟨rfl, hgap⟩⟩
  | full hlisted => exact ⟨_, rfl, .inr hlisted⟩

end Spec

section Reading

variable {α : Type} {one : α → List Char → Prop} {tokens : α → List Token} {stop : Char}
  {depth : Nat} {lx : Lexer} {ts : List Token} {text cs : List Char}

/-- Elements are read as their tokens, each up to the comma or the end after it. -/
def ReadAs (one : α → List Char → Prop) (tokens : α → List Token) (stop : Char) (depth : Nat) :
    Prop :=
  ∀ {a text cs c lx ts}, one a text → c = ',' ∨ c = stop →
    Reading lx ts depth (text ++ c :: cs) → lx.keyAllowed = true →
      ∃ lx', Reads text lx lx' ∧ Reading lx' (ts ++ tokens a) depth (c :: cs)

theorem Listed.reads {as : List α} (h : Listed one as text)
    (hone : ReadAs one tokens stop depth) (hdepth : 0 < depth)
    (hlx : Reading lx ts depth (text ++ stop :: cs)) (hallowed : lx.keyAllowed = true) :
    ∃ lx', Reads text lx lx' ∧ Reading lx' (ts ++ separated tokens as) depth (stop :: cs) := by
  induction h generalizing lx ts with
  | last ha => exact hone ha (.inr rfl) hlx hallowed
  | @next a as text rest ha hrest ih =>
    rw [List.append_assoc] at hlx
    obtain ⟨lx₁, hreads₁, hlx₁⟩ := hone ha (.inl rfl) hlx hallowed
    obtain ⟨lx₂, hreads₂, hlx₂, hallowed₂⟩ := hlx₁.flowEntry hdepth
    obtain ⟨lx', hreads, hlx'⟩ := ih hlx₂ hallowed₂
    have htokens : ts ++ separated tokens (a :: as) =
        ts ++ tokens a ++ [.flowEntry] ++ separated tokens as := by
      rw [separated_cons tokens a hrest.ne_nil]
      simp
    rw [htokens]
    exact ⟨lx', hreads₁.trans (hreads₂.trans hreads), hlx'⟩

theorem reads_body {as : List α} {t : Token}
    (hbody : as = [] ∧ text ⊆ whitespace ∨ Listed one as text)
    (hone : ReadAs one tokens stop (depth + 1)) (hstop : stop ∈ starts)
    (ht : ∀ lx, reader stop lx = readFlowEnd lx t)
    (hlx : Reading lx ts (depth + 1) (text ++ stop :: cs)) (hallowed : lx.keyAllowed = true) :
    ∃ lx', Reads (text ++ [stop]) lx lx' ∧
      Gathered lx' (ts ++ separated tokens as ++ [t]) depth ∧ lx'.keyAllowed = false ∧
      ∃ line col, Stands line col cs lx'.rest := by
  rcases hbody with ⟨rfl, hgap⟩ | hlisted
  · obtain ⟨lx', hreads, hlx'⟩ := (hlx.skip hgap).flowEnd hstop ht
    rw [separated, List.append_nil]
    exact ⟨lx', hreads.mono (by simp), hlx'⟩
  · obtain ⟨lx₁, hreads₁, hlx₁⟩ := hlisted.reads hone (Nat.succ_pos depth) hlx hallowed
    obtain ⟨lx', hreads, hlx'⟩ := hlx₁.flowEnd hstop ht
    exact ⟨lx', hreads₁.trans hreads, hlx'⟩

theorem readAs_item (hdepth : 0 < depth) :
    ReadAs (Padded (Quoted Rules.portable)) itemTokens stop depth := by
  intro s text cs c lx ts h _ hlx _
  cases h with
  | @between quoted before after hbefore hquoted hafter =>
    have hlx : Reading lx ts depth (before ++ (quoted ++ (after ++ c :: cs))) := by simpa using hlx
    obtain ⟨lx', line, col, hreads, hlx', hs, -⟩ := (hlx.skip hbefore).string hquoted hdepth
    exact ⟨lx', hreads.mono (by simp; omega), (hlx'.reading hs).skip hafter⟩

theorem Written.reads {v : Value} {gap : List Char} {c : Char} (h : Written Rules.portable v text)
    (hgap : gap ⊆ whitespace) (hc : c = ',' ∨ c = '\x7d') (hdepth : 0 < depth)
    (hlx : Reading lx ts depth (text ++ (gap ++ c :: cs))) :
    ∃ lx', Reads text lx lx' ∧ Reading lx' (ts ++ valueTokens v) depth (c :: cs) := by
  cases h with
  | flag v => exact Reading.flag v hgap hc hlx hdepth
  | list henclosed =>
    obtain ⟨body, rfl, hbody⟩ := henclosed.body
    have hlx : Reading lx ts depth ('[' :: (body ++ ']' :: (gap ++ c :: cs))) := by simpa using hlx
    obtain ⟨lx₁, hreads₁, hlx₁, hallowed₁⟩ :=
      hlx.flowStart (t := .flowSequence) (by decide) hdepth fun _ => rfl
    obtain ⟨lx', hreads, hlx', -, line, col, hs⟩ := reads_body (t := .flowSequenceEnd) hbody
      (readAs_item (Nat.succ_pos depth)) (by decide) (fun _ => rfl) hlx₁ hallowed₁
    refine ⟨lx', hreads₁.trans hreads, ?_⟩
    rw [List.append_assoc ts, List.append_assoc ts] at hlx'
    exact (hlx'.reading hs).skip hgap

theorem readAs_member (hdepth : 0 < depth) :
    ReadAs (Member Rules.portable) memberTokens '\x7d' depth := by
  intro m text cs c lx ts h hc hlx hallowed
  cases h with
  | @pair k v key value before gap hbefore hkey hgap hvalue =>
    cases hvalue with
    | @between value space after hspace hvalue hafter =>
      have hlx : Reading lx ts depth
          (before ++ (key ++ (gap ++ ':' :: (space ++ (value ++ (after ++ c :: cs)))))) := by
        simpa using hlx
      obtain ⟨lx₁, hreads₁, hlx₁⟩ := (hlx.skip hbefore).key hkey hgap hdepth hallowed
      obtain ⟨lx', hreads, hlx'⟩ := hvalue.reads hafter hc hdepth (hlx₁.skip hspace)
      refine ⟨lx', (hreads₁.trans hreads).mono (by simp; omega), ?_⟩
      rwa [List.append_assoc] at hlx'

end Reading

section Text

theorem tab_notMem_untabbed {gap : List Char} (h : gap ⊆ untabbed) : '\t' ∉ gap :=
  fun ht => absurd (h ht) (by decide)

theorem reads_object {lx : Lexer} {gap cs : List Char} (h : Gathered lx [] 0)
    (hgap : gap ⊆ untabbed) (hs : Stands 0 0 (gap ++ '\x7b' :: cs) lx.rest) :
    ∃ lx', Reads ['\x7b'] lx lx' ∧ Reading lx' [.flowMapping] 1 cs ∧ lx'.keyAllowed = true := by
  obtain ⟨line, col, s₁, s₂, hrest, hs₁, hs₂⟩ :=
    hs.whitespace (List.Subset.trans hgap untabbed_subset_whitespace) (by simp)
  obtain ⟨allowed, -, hskip⟩ := skipToToken_append lx.inFlow
    lx.keyAllowed s₂ hs₁ fun ht => absurd ht (tab_notMem_untabbed hgap)
  rw [skipToToken_start (by decide) hs₂, ← hrest] at hskip
  obtain ⟨lx₁, hto, hlx₁, hrest₁, -⟩ := h.toToken hskip
  rw [← hrest₁] at hs₂
  obtain ⟨fresh, hpeek⟩ := hs₂.peek_eq (by decide)
  obtain ⟨lx', hread, hlx', hrest', hallowed⟩ := hlx₁.readFlowStart .flowMapping
  have hs' := hs₂.tail (by decide)
  refine ⟨lx', .token hto ?_ ?_, hlx'.reading (hrest'.symm ▸ hs'), hallowed⟩
  · rw [Lexer.next, hpeek]
    rfl
  · rw [readToken_eq_reader (by decide) (by simp) hs₂]
    exact hread

theorem run_after {lx : Lexer} {ts : List Token} {line col : Nat} {gap : List Char} (fuel : Nat)
    (h : Gathered lx ts 0) (hallowed : lx.keyAllowed = false) (hgap : Rules.portable.after gap)
    (hs : Stands line col gap lx.rest) :
    Lexer.run toToken readToken (fuel + 1) lx = .ok ts := by
  obtain ⟨gap₁, gap₂, rfl, hgap₁, hgap₂⟩ := hgap
  obtain ⟨s₁, s₂, hrest, hchars, hnone, hs₂⟩ :=
    hs.append fun x hx => breakAs_of_mem_blanks x (hgap₁ hx)
  rw [← List.append_nil gap₂] at hs₂
  obtain ⟨line', col', s₃, s₄, rfl, hs₃, hs₄⟩ :=
    hs₂.whitespace (List.Subset.trans hgap₂ untabbed_subset_whitespace) (by simp)
  obtain ⟨allowed, -, hskip⟩ := skipToToken_append lx.inFlow false s₄ hs₃
    fun ht => absurd ht (tab_notMem_untabbed hgap₂)
  have hblanks : ∀ p ∈ s₁, p.isBreak = false ∧ p.char ∈ blanks := fun p hp =>
    ⟨hnone p hp, hgap₁ (hchars ▸ List.mem_map_of_mem hp)⟩
  have hskips : skipToToken lx.inFlow lx.keyAllowed false lx.rest = (allowed, s₄) := by
    rw [hallowed, hrest, skipToToken_blanks hblanks, hskip, skipToToken_end hs₄]
  obtain ⟨lx₁, hto, hlx₁, hrest₁, -⟩ := h.toToken hskips
  have hend : lx₁.next.isEnd = true := by
    obtain ⟨fresh, rfl⟩ := hs₄.nil
    rw [Lexer.next, hrest₁]
    rfl
  obtain ⟨lx', hdrop, hlx', -⟩ := hlx₁.dropKey
  rw [Lexer.run, hto]
  simp only [bind, Except.bind, hend, if_true, hlx₁.closeBlocks_eq, hdrop]
  rw [hlx'.tokens, Tokens.toList, List.reverse_reverse]
  rfl

end Text

section Allowed

variable {α : Type} {one : α → List Char → Prop} {text : List Char}

def Allowed (text : List Char) : Prop := ∀ x ∈ text, isAllowed x = true

theorem allowed_of_subset {gap : List Char} (h : gap ⊆ whitespace) : Allowed gap := by
  have hspace : ∀ x ∈ whitespace, isAllowed x = true := List.all_eq_true.mp (by decide)
  exact fun x hx => hspace x (h hx)

theorem Spelled.allowed {cs : List Char} (h : Spelled Rules.portable cs text) :
    Allowed text := by
  induction h with
  | nil => exact List.forall_mem_nil _
  | cons hspelling _ ih =>
    refine List.forall_mem_append.mpr ⟨?_, ih⟩
    rcases hspelling with ⟨hbare, hread⟩ | hescape
    · have hspec := bare_spec hbare hread
      cases hbare
      exact List.forall_mem_singleton.mpr hspec.2.2
    · obtain ⟨tail, rfl, -, htail⟩ := hescape.tail
      exact List.forall_mem_cons.mpr ⟨by decide, fun x hx => (htail x hx).2⟩

theorem Quoted.allowed {s : String} (h : Quoted Rules.portable s text) :
    Allowed text := by
  cases h with
  | quotes hbody =>
    refine List.forall_mem_cons.mpr ⟨by decide, List.forall_mem_append.mpr ⟨hbody.allowed, ?_⟩⟩
    exact List.forall_mem_singleton.mpr (by decide)

theorem Padded.allowed {a : α} (h : Padded one a text)
    (hone : ∀ {text}, one a text → Allowed text) :
    Allowed text := by
  cases h with
  | between before after hbefore htext hafter =>
    exact List.forall_mem_append.mpr ⟨List.forall_mem_append.mpr
      ⟨allowed_of_subset hbefore, hone htext⟩, allowed_of_subset hafter⟩

theorem Listed.allowed {as : List α} (h : Listed one as text)
    (hone : ∀ {a text}, one a text → Allowed text) :
    Allowed text := by
  induction h with
  | last ha => exact hone ha
  | next ha _ ih =>
    exact List.forall_mem_append.mpr ⟨hone ha, List.forall_mem_cons.mpr ⟨by decide, ih⟩⟩

theorem Enclosed.allowed {start stop : Char} {as : List α} (h : Enclosed start stop one as text)
    (hstart : isAllowed start = true) (hstop : isAllowed stop = true)
    (hone : ∀ {a text}, one a text → Allowed text) :
    Allowed text := by
  obtain ⟨body, rfl, hbody⟩ := h.body
  refine List.forall_mem_cons.mpr
    ⟨hstart, List.forall_mem_append.mpr ⟨?_, List.forall_mem_singleton.mpr hstop⟩⟩
  rcases hbody with ⟨-, hgap⟩ | hlisted
  · exact allowed_of_subset hgap
  · exact hlisted.allowed hone

theorem Written.allowed {v : Value} (h : Written Rules.portable v text) :
    Allowed text := by
  cases h with
  | flag v =>
    have hall : (flagText v).all isAllowed = true := by
      cases v <;> decide
    exact List.all_eq_true.mp hall
  | list henclosed =>
    exact henclosed.allowed (by decide) (by decide) fun h => h.allowed Quoted.allowed

theorem Member.allowed {m : String × Value} (h : Member Rules.portable m text) :
    Allowed text := by
  cases h with
  | pair before gap hbefore hkey hgap hvalue =>
    have hcolon := allowed_of_subset (List.Subset.trans hgap.1 blanks_subset_whitespace)
    simp only [Allowed, List.forall_mem_append, List.forall_mem_cons]
    exact ⟨⟨⟨allowed_of_subset hbefore, hkey.allowed⟩, hcolon⟩, by decide,
      hvalue.allowed Written.allowed⟩

variable {members : List (String × Value)}

theorem Text.allowed (h : Text Rules.portable members text) : Allowed text := by
  cases h with
  | object before after hbefore henclosed hafter =>
    obtain ⟨gap₁, gap₂, rfl, hgap₁, hgap₂⟩ := hafter
    have hobject := henclosed.allowed (by decide) (by decide) Member.allowed
    simp only [Allowed, List.forall_mem_append]
    exact ⟨⟨allowed_of_subset (List.Subset.trans hbefore untabbed_subset_whitespace), hobject⟩,
      allowed_of_subset (List.Subset.trans hgap₁ blanks_subset_whitespace),
      allowed_of_subset (List.Subset.trans hgap₂ untabbed_subset_whitespace)⟩

theorem Text.head?_ne (h : Text Rules.portable members text) : text.head? ≠ some '\ufeff' := by
  cases h with
  | object before after hbefore henclosed _ =>
    obtain ⟨body, rfl, -⟩ := henclosed.body
    cases before with
    | nil => simp
    | cons x before =>
      intro heq
      obtain rfl := Option.some.inj heq
      exact absurd (hbefore List.mem_cons_self) (by decide)

end Allowed

section Text

variable {members : List (String × Value)} {text : List Char}

theorem Text.run (h : Text Rules.portable members text) :
    Lexer.run toToken readToken (text.length + 1) { rest := place breakAs text } =
      .ok (textTokens members) := by
  have hstart : Gathered { rest := place breakAs text } [] 0 :=
    ⟨rfl, rfl, rfl, rfl, List.forall_mem_singleton.mpr fun p hp => (by cases hp)⟩
  cases h with
  | object before after hbefore henclosed hafter =>
    obtain ⟨body, rfl, hbody⟩ := henclosed.body
    have hstands : Stands 0 0 (before ++ '\x7b' :: (body ++ '\x7d' :: after))
        (place breakAs (before ++ '\x7b' :: (body ++ ['\x7d']) ++ after)) :=
      ⟨true, by simp [place]⟩
    obtain ⟨lx₁, hreads₁, hlx₁, hallowed₁⟩ := reads_object hstart hbefore hstands
    obtain ⟨lx₂, hreads₂, hlx₂, hallowed₂, line, col, hs₂⟩ := reads_body (t := .flowMappingEnd)
      hbody (readAs_member Nat.one_pos) (by decide) (fun _ => rfl) hlx₁ hallowed₁
    have hlen : (['\x7b'] ++ (body ++ ['\x7d'])).length ≤
        (before ++ '\x7b' :: (body ++ ['\x7d']) ++ after).length := by
      simp
      omega
    obtain ⟨n, hn, hrun⟩ := (hreads₁.trans hreads₂).mono hlen
    obtain ⟨fuel, hfuel⟩ := Nat.exists_eq_add_of_le hn
    rw [hfuel, Nat.add_assoc, hrun, run_after fuel hlx₂ hallowed₂ hafter hs₂]
    rfl

theorem tokens_of_text (h : Text Rules.portable members text) :
    tokens text = .ok (textTokens members) := by
  have hall : text.all isAllowed = true := List.all_eq_true.mpr h.allowed
  rw [tokens, if_pos hall]
  simp only [if_neg h.head?_ne]
  exact h.run

end Text

end Preopt.Json
