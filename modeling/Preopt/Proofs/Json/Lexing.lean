import Mathlib.Data.List.Basic
import Preopt.Proofs.Json.Scanning

/-! How a lexer of YAML 1.1 moves over a portable text. No block is ever open, and no place where a
key may start has to have one. -/

namespace Preopt.Json

open Yaml Yaml.V11

theorem mapM_eq_ok_map {ε α β : Type} {f : α → Except ε β} {g : α → β} {l : List α}
    (h : ∀ a ∈ l, f a = .ok (g a)) : l.mapM f = .ok (l.map g) := by
  induction l with
  | nil => rfl
  | cons a l ih =>
    obtain ⟨ha, hl⟩ := List.forall_mem_cons.mp h
    rw [List.mapM_cons, ha, ih hl]
    rfl

def Loose (keys : List (Option PossibleKey)) : Prop := ∀ k ∈ keys, ∀ p ∈ k, p.required = false

theorem keys_of_currentKey {lx : Lexer} {k : PossibleKey} (h : lx.currentKey = some k) :
    ∃ rest, lx.keys = some k :: rest := by
  cases hkeys : lx.keys with
  | nil => rw [Lexer.currentKey, hkeys] at h; cases h
  | cons first rest =>
    rw [Lexer.currentKey, hkeys] at h
    have hfirst : first = some k := h
    exact ⟨rest, by rw [hfirst]⟩

def unlessTooFar (p : Placed) (k : Option PossibleKey) : Option PossibleKey :=
  k.filter (!·.isTooFar p)

structure Gathered (lx : Lexer) (ts : List Token) (depth : Nat) : Prop where
  tokens : lx.tokens = ⟨ts.reverse, ts.length⟩
  indent : lx.indent = -1
  indents : lx.indents = []
  keys : lx.keys.length = depth + 1
  loose : Loose lx.keys

namespace Gathered

variable {lx : Lexer} {ts : List Token} {depth : Nat} (h : Gathered lx ts depth)
include h

theorem inFlow_of_pos (hdepth : 0 < depth) : lx.inFlow = true := by
  rw [Lexer.inFlow, h.keys]
  exact decide_eq_true (Nat.succ_lt_succ hdepth)

theorem inBlock_eq : lx.inBlock = false := by
  rw [Lexer.inBlock, h.indents]
  rfl

theorem closeBlocks_eq (column : Int) : lx.closeBlocks column = lx := by
  rw [Lexer.closeBlocks]
  split
  · rfl
  · rw [h.indents, Lexer.closeBlocks.go, ← h.indents]

theorem withKeys {keys : List (Option PossibleKey)} {depth' : Nat}
    (hlen : keys.length = depth' + 1) (hloose : Loose keys) :
    Gathered { lx with keys := keys } ts depth' :=
  ⟨h.tokens, h.indent, h.indents, hlen, hloose⟩

theorem emit (allowed : Bool) (t : Token) (rest : List Placed) :
    Gathered ((lx.allowKey allowed).emit t rest) (ts ++ [t]) depth := by
  refine ⟨?_, h.indent, h.indents, h.keys, h.loose⟩
  have htokens : ((lx.allowKey allowed).emit t rest).tokens = lx.tokens.push t := rfl
  rw [htokens, h.tokens, Tokens.push]
  simp

theorem setKey {k : Option PossibleKey} (hk : ∀ p ∈ k, p.required = false) :
    Gathered (lx.setKey k) ts depth := by
  refine h.withKeys ?_ (List.forall_mem_cons.mpr ⟨hk, fun k' hk' => ?_⟩)
  · rw [List.length_cons, List.length_tail, h.keys]
    rfl
  · exact h.loose k' (List.mem_of_mem_tail hk')

theorem setKey_none : Gathered (lx.setKey none) ts depth := h.setKey fun _ hp => by cases hp

theorem dropKey : ∃ lx', lx.dropKey = .ok lx' ∧ Gathered lx' ts depth ∧ lx'.rest = lx.rest := by
  rw [Lexer.dropKey]
  split
  · next k hk =>
    obtain ⟨rest, hkeys⟩ := keys_of_currentKey hk
    have hrequired : k.required = false :=
      h.loose (some k) (by rw [hkeys]; exact List.mem_cons_self) k rfl
    rw [if_neg (by rw [hrequired]; exact Bool.false_ne_true)]
    exact ⟨_, rfl, h.setKey_none, rfl⟩
  · exact ⟨lx, rfl, h, rfl⟩

/-- Where a key may start it is noted, to be found there if a colon follows it. -/
theorem noteKey : ∃ lx', lx.noteKey = .ok lx' ∧ Gathered lx' ts depth ∧ lx'.rest = lx.rest ∧
    (lx.keyAllowed = true →
      lx'.currentKey = some ⟨ts.length, lx.next.line, lx.next.col, false⟩) := by
  rw [Lexer.noteKey]
  split
  · obtain ⟨lx', hdrop, hlx', hrest⟩ := h.dropKey
    have hnext : lx'.next = lx.next := by rw [Lexer.next, Lexer.next, hrest]
    have hcount : lx'.tokens.count = ts.length := by rw [hlx'.tokens]
    refine ⟨lx'.setKey (some ⟨ts.length, lx.next.line, lx.next.col, false⟩), ?_,
      hlx'.setKey fun p hp => (by cases hp; rfl), hrest, fun _ => rfl⟩
    simp only [h.inBlock_eq, Bool.and_false, hdrop]
    simp only [bind, Except.bind, hcount, hnext]
    rfl
  · next hallowed => exact ⟨lx, rfl, h, rfl, fun hyes => absurd hyes hallowed⟩

/-- Keys that are too far back are forgotten, which is no fault as none is required. -/
theorem dropOldKeys : ∃ lx', lx.dropOldKeys = .ok lx' ∧ Gathered lx' ts depth ∧
    lx'.rest = lx.rest ∧ lx'.keyAllowed = lx.keyAllowed ∧
    ∀ k, lx.currentKey = some k → k.isTooFar lx.next = false → lx'.currentKey = some k := by
  refine ⟨{ lx with keys := lx.keys.map (unlessTooFar lx.next) }, ?_, ?_, rfl, rfl, ?_⟩
  · rw [Lexer.dropOldKeys, mapM_eq_ok_map (g := unlessTooFar lx.next)]
    · rfl
    · intro k hk
      cases k with
      | none => rfl
      | some k =>
        have hrequired : k.required = false := h.loose _ hk k rfl
        by_cases hfar : k.isTooFar lx.next = true <;>
          simp [unlessTooFar, Option.filter_some, hfar, hrequired]
  · refine h.withKeys (by rw [List.length_map, h.keys]) fun k' hk' p hp => ?_
    obtain ⟨k, hk, rfl⟩ := List.mem_map.mp hk'
    exact h.loose k hk p (Option.eq_some_of_filter_eq_some hp)
  · intro k hcurrent hnear
    obtain ⟨rest, hkeys⟩ := keys_of_currentKey hcurrent
    simp [Lexer.currentKey, hkeys, unlessTooFar, Option.filter_some, hnear]

theorem readFlowStart (t : Token) : ∃ lx', V11.readFlowStart lx t = .ok lx' ∧
    Gathered lx' (ts ++ [t]) (depth + 1) ∧ lx'.rest = lx.rest.drop 1 ∧ lx'.keyAllowed = true := by
  obtain ⟨lx₁, hnote, hlx₁, hrest, -⟩ := h.noteKey
  have hopen : Gathered { lx₁ with keys := none :: lx₁.keys } ts (depth + 1) := by
    refine hlx₁.withKeys ?_ (List.forall_mem_cons.mpr ⟨fun _ hp => (by cases hp), hlx₁.loose⟩)
    rw [List.length_cons, hlx₁.keys]
  refine ⟨_, ?_, hopen.emit true t (lx.rest.drop 1), rfl, rfl⟩
  rw [V11.readFlowStart, hnote, ← hrest]
  rfl

theorem readFlowEntry : ∃ lx', V11.readFlowEntry lx = .ok lx' ∧
    Gathered lx' (ts ++ [.flowEntry]) depth ∧ lx'.rest = lx.rest.drop 1 ∧
    lx'.keyAllowed = true := by
  obtain ⟨lx₁, hdrop, hlx₁, hrest⟩ := h.dropKey
  refine ⟨_, ?_, hlx₁.emit true .flowEntry (lx.rest.drop 1), rfl, rfl⟩
  rw [V11.readFlowEntry, hdrop, ← hrest]
  rfl

omit h in
theorem readFlowEnd (h : Gathered lx ts (depth + 1)) (t : Token) :
    ∃ lx', V11.readFlowEnd lx t = .ok lx' ∧ Gathered lx' (ts ++ [t]) depth ∧
      lx'.rest = lx.rest.drop 1 ∧ lx'.keyAllowed = false := by
  obtain ⟨lx₁, hdrop, hlx₁, hrest⟩ := h.dropKey
  have hclosed : Gathered { lx₁ with keys := lx₁.keys.tail } ts depth := by
    refine hlx₁.withKeys ?_ fun k hk => hlx₁.loose k (List.mem_of_mem_tail hk)
    rw [List.length_tail, hlx₁.keys]
    rfl
  have hflow : lx₁.inFlow = true := hlx₁.inFlow_of_pos (Nat.succ_pos depth)
  refine ⟨_, ?_, hclosed.emit false t (lx.rest.drop 1), rfl, rfl⟩
  rw [V11.readFlowEnd, hdrop, ← hrest]
  simp only [bind, Except.bind, hflow, if_true]
  rfl

theorem readQuotes {line col : Nat} {s : String} {text cs : List Char}
    (hquoted : Quoted Rules.portable s text) (hs : Stands line col (text ++ cs) lx.rest) :
    ∃ lx', V11.readQuotes lx false = .ok lx' ∧
      Gathered lx' (ts ++ [.scalar .doubleQuoted s]) depth ∧
      Stands line (col + text.length) cs lx'.rest ∧ lx'.keyAllowed = false ∧
      (lx.keyAllowed = true → lx'.currentKey = some ⟨ts.length, line, col, false⟩) := by
  cases hquoted with
  | @quotes body hbody =>
    have hs' : Stands line col ('"' :: (body ++ '"' :: cs)) lx.rest := by simpa using hs
    obtain ⟨fresh, s₁, hrest, hs₁⟩ := hs'.cons (by decide)
    obtain ⟨s₂, hs₂, hread⟩ :=
      quoted_spelled [] {} hbody (Nat.succ_pos col) rfl hs₁
    obtain ⟨lx₁, hnote, hlx₁, hrest₁, hkey⟩ := h.noteKey
    have htext : String.ofList (s.toList.reverse ++ []).reverse = s := by simp
    refine ⟨_, ?_, hlx₁.emit false (.scalar .doubleQuoted s) s₂, ?_, rfl, fun hallowed => ?_⟩
    · rw [V11.readQuotes, hnote]
      simp only [bind, Except.bind, hrest₁, hrest, List.drop_one, List.tail_cons, hread]
      rw [List.append_nil, htext]
      rfl
    · have hlen : col + ('"' :: body ++ ['"']).length = col + 1 + body.length + 1 := by
        simp
        omega
      rw [hlen]
      exact hs₂
    · have hnext : lx.next = ⟨'"', line, col, false, fresh⟩ := by rw [Lexer.next, hrest]; rfl
      exact (hkey hallowed).trans (by rw [hnext])

theorem readWord (v : Bool) {line col : Nat} {gap cs : List Char} {c : Char} (hdepth : 0 < depth)
    (hgap : gap ⊆ whitespace) (hc : c = ',' ∨ c = '\x7d')
    (hs : Stands line col (flagText v ++ (gap ++ c :: cs)) lx.rest) :
    ∃ lx' line' col', V11.readWord lx = .ok lx' ∧
      Gathered lx' (ts ++ [.scalar .plain (String.ofList (flagText v))]) depth ∧
      Stands line' col' (c :: cs) lx'.rest := by
  obtain ⟨line', col', gap', s', hs', hplain⟩ := plain_flag v hgap hc hs
  obtain ⟨lx₁, hnote, hlx₁, hrest, -⟩ := h.noteKey
  have hflow : lx₁.inFlow = true := hlx₁.inFlow_of_pos hdepth
  have hindent : lx₁.indent + 1 = 0 := by
    rw [hlx₁.indent]
    rfl
  refine ⟨_, line', col', ?_,
    hlx₁.emit gap'.broken (.scalar .plain (String.ofList (flagText v))) s', hs'⟩
  rw [V11.readWord, hnote]
  simp only [bind, Except.bind, hflow, hindent, hrest, hplain, List.reverse_reverse]
  rfl

omit h in
/-- The colon after a key puts the key's token in front of it. -/
theorem readValue {t : Token} (h : Gathered lx (ts ++ [t]) depth) (hdepth : 0 < depth)
    {line col : Nat} (hkey : lx.currentKey = some ⟨ts.length, line, col, false⟩) :
    ∃ lx', V11.readValue lx = .ok lx' ∧ Gathered lx' (ts ++ [.key, t, .value]) depth ∧
      lx'.rest = lx.rest.drop 1 := by
  have hinsert : lx.tokens.insert ts.length [.key] =
      ⟨(ts ++ [.key, t]).reverse, (ts ++ [.key, t]).length⟩ := by
    rw [h.tokens, Tokens.insert]
    simp
  have hinserted :
      Gathered { lx with tokens := lx.tokens.insert ts.length [.key] } (ts ++ [.key, t]) depth :=
    ⟨hinsert, h.indent, h.indents, h.keys, h.loose⟩
  have hflow : ({ lx with tokens := lx.tokens.insert ts.length [.key] } : Lexer).inFlow = true :=
    hinserted.inFlow_of_pos hdepth
  have hmoved := hinserted.setKey_none.emit false .value (lx.rest.drop 1)
  rw [List.append_assoc] at hmoved
  refine ⟨_, ?_, hmoved, rfl⟩
  rw [V11.readValue, hkey]
  simp only [Lexer.openBlock, hflow, if_true]
  rfl

end Gathered

section Steps

variable {lx lx₁ lx' : Lexer} {ts : List Token} {depth : Nat} {c : Char} {cs text rest : List Char}

def reader (c : Char) (lx : Lexer) : Except Fault Lexer :=
  match c with
  | '[' => readFlowStart lx .flowSequence
  | '\x7b' => readFlowStart lx .flowMapping
  | ']' => readFlowEnd lx .flowSequenceEnd
  | '\x7d' => readFlowEnd lx .flowMappingEnd
  | ',' => readFlowEntry lx
  | ':' => readValue lx
  | '"' => readQuotes lx false
  | _ => readWord lx

theorem readToken_eq_reader {line col : Nat} (hc : c ∈ starts) (hflow : c = ':' → lx.inFlow = true)
    (hs : Stands line col (c :: cs) lx.rest) : readToken lx = reader c lx := by
  obtain ⟨fresh, s, hrest, -⟩ := hs.cons (starts_spec c hc).1
  have hnext : lx.next = ⟨c, line, col, false, fresh⟩ := by rw [Lexer.next, hrest]; rfl
  obtain ⟨-, -, -, -, -, hpercent, hdash, hdot⟩ := starts_spec c hc
  have hdashes : isMarkerOf '-' lx.rest = false := by simp [isMarkerOf, hrest, peek, hdash]
  have hdots : isMarkerOf '.' lx.rest = false := by simp [isMarkerOf, hrest, peek, hdot]
  rw [readToken]
  simp only [hnext, hpercent, and_false, if_false, hdashes, hdots, Bool.false_eq_true]
  simp only [starts, List.mem_cons, List.not_mem_nil, or_false] at hc
  rcases hc with rfl | rfl | rfl | rfl | rfl | rfl | rfl | rfl | rfl <;>
    simp [reader, startsWord, hflow]

/-- The lexer read a piece of the text, in no more steps than it has characters. -/
def Reads (text : List Char) (lx lx' : Lexer) : Prop :=
  ∃ n ≤ text.length, ∀ fuel,
    Lexer.run toToken readToken (n + fuel) lx = Lexer.run toToken readToken fuel lx'

namespace Reads

theorem trans (h : Reads text lx lx₁) (h₁ : Reads rest lx₁ lx') : Reads (text ++ rest) lx lx' := by
  obtain ⟨n, hn, hrun⟩ := h
  obtain ⟨m, hm, hrun₁⟩ := h₁
  refine ⟨n + m, ?_, fun fuel => ?_⟩
  · rw [List.length_append]
    exact Nat.add_le_add hn hm
  · rw [Nat.add_assoc, hrun, hrun₁]

theorem mono {text' : List Char} (h : Reads text lx lx') (hlen : text.length ≤ text'.length) :
    Reads text' lx lx' :=
  let ⟨n, hn, hrun⟩ := h
  ⟨n, Nat.le_trans hn hlen, hrun⟩

theorem token (hto : toToken lx = .ok lx₁) (hend : lx₁.next.isEnd = false)
    (hread : readToken lx₁ = .ok lx') : Reads [c] lx lx' := by
  refine ⟨1, Nat.le_refl _, fun fuel => ?_⟩
  rw [Nat.add_comm, Lexer.run, hto]
  simp only [bind, Except.bind, hend, Bool.false_eq_true, if_false, hread]

end Reads

structure Reading (lx : Lexer) (ts : List Token) (depth : Nat) (cs : List Char) : Prop extends
    Gathered lx ts depth where
  ahead : ∃ gap line col, gap ⊆ whitespace ∧ Stands line col (gap ++ cs) lx.rest

namespace Gathered

theorem reading {line col : Nat} (h : Gathered lx ts depth) (hs : Stands line col cs lx.rest) :
    Reading lx ts depth cs :=
  ⟨h, [], line, col, List.nil_subset _, hs⟩

theorem toToken {allowed : Bool} {s : List Placed} (h : Gathered lx ts depth)
    (hskip : skipToToken lx.inFlow lx.keyAllowed false lx.rest = (allowed, s)) :
    ∃ lx₁, V11.toToken lx = .ok lx₁ ∧ Gathered lx₁ ts depth ∧ lx₁.rest = s ∧
      lx₁.keyAllowed = allowed ∧
      ∀ k, lx.currentKey = some k → k.isTooFar (peek s 0) = false → lx₁.currentKey = some k := by
  have hskipped : Gathered { lx with keyAllowed := allowed, rest := s } ts depth :=
    ⟨h.tokens, h.indent, h.indents, h.keys, h.loose⟩
  obtain ⟨lx₁, hdrop, hlx₁, hrest, hallowed, hkey⟩ := hskipped.dropOldKeys
  refine ⟨lx₁, ?_, hlx₁, hrest, hallowed, hkey⟩
  rw [V11.toToken, hskip]
  simp only [bind, Except.bind, hdrop]
  rw [hlx₁.closeBlocks_eq]
  rfl

end Gathered

namespace Reading

theorem skip {gap : List Char} (h : Reading lx ts depth (gap ++ cs)) (hgap : gap ⊆ whitespace) :
    Reading lx ts depth cs := by
  obtain ⟨gap', line, col, hgap', hs⟩ := h.ahead
  refine ⟨h.toGathered, gap' ++ gap, line, col, List.append_subset.mpr ⟨hgap', hgap⟩, ?_⟩
  rwa [List.append_assoc]

theorem token {P : Lexer → Prop} (h : Reading lx ts depth (c :: cs)) (hc : c ∈ starts)
    (hdepth : 0 < depth)
    (hread : ∀ {lx₁ line col}, Gathered lx₁ ts depth → Stands line col (c :: cs) lx₁.rest →
      lx₁.keyAllowed = lx.keyAllowed → ∃ lx', reader c lx₁ = .ok lx' ∧ P lx') :
    ∃ lx', Reads [c] lx lx' ∧ P lx' := by
  obtain ⟨hbreak, hnul, -⟩ := starts_spec c hc
  obtain ⟨gap, line, col, hgap, hs⟩ := h.ahead
  have hhead : (c :: cs).head? ≠ some '\n' := by
    rintro heq
    obtain rfl := Option.some.inj heq
    exact absurd hbreak (by decide)
  obtain ⟨line', col', s₁, s₂, hrest, hs₁, hs₂⟩ := hs.whitespace hgap hhead
  have hflow : lx.inFlow = true := h.inFlow_of_pos hdepth
  obtain ⟨allowed, hallowed, hskip⟩ :=
    skipToToken_append true lx.keyAllowed s₂ hs₁ fun _ => rfl
  rw [skipToToken_start hc hs₂, hallowed rfl, ← hrest, ← hflow] at hskip
  obtain ⟨lx₁, hto, hlx₁, hrest₁, hallowed₁, -⟩ := h.toToken hskip
  rw [← hrest₁] at hs₂
  obtain ⟨lx', hlx', hP⟩ := hread hlx₁ hs₂ hallowed₁
  refine ⟨lx', .token hto ?_ ?_, hP⟩
  · obtain ⟨fresh, hpeek⟩ := hs₂.peek_eq hbreak
    rw [Lexer.next, hpeek]
    exact beq_eq_false_iff_ne.mpr hnul
  · rw [readToken_eq_reader hc (fun _ => hlx₁.inFlow_of_pos hdepth) hs₂, hlx']

theorem flowStart {t : Token} (h : Reading lx ts depth (c :: cs)) (hc : c ∈ starts)
    (hdepth : 0 < depth) (ht : ∀ lx, reader c lx = V11.readFlowStart lx t) :
    ∃ lx', Reads [c] lx lx' ∧ Reading lx' (ts ++ [t]) (depth + 1) cs ∧ lx'.keyAllowed = true := by
  refine h.token hc hdepth fun hlx₁ hs _ => ?_
  obtain ⟨lx', hread, hlx', hrest, hallowed⟩ := hlx₁.readFlowStart t
  have hs' := hs.tail (starts_spec c hc).1
  exact ⟨lx', (ht _).trans hread, hlx'.reading (hrest ▸ hs'), hallowed⟩

theorem flowEntry (h : Reading lx ts depth (',' :: cs)) (hdepth : 0 < depth) :
    ∃ lx', Reads [','] lx lx' ∧ Reading lx' (ts ++ [.flowEntry]) depth cs ∧
      lx'.keyAllowed = true := by
  refine h.token (by decide) hdepth fun hlx₁ hs _ => ?_
  obtain ⟨lx', hread, hlx', hrest, hallowed⟩ := hlx₁.readFlowEntry
  exact ⟨lx', hread, hlx'.reading (hrest ▸ hs.tail (by decide)), hallowed⟩

theorem flowEnd {t : Token} (h : Reading lx ts (depth + 1) (c :: cs)) (hc : c ∈ starts)
    (ht : ∀ lx, reader c lx = V11.readFlowEnd lx t) :
    ∃ lx', Reads [c] lx lx' ∧ Gathered lx' (ts ++ [t]) depth ∧ lx'.keyAllowed = false ∧
      ∃ line col, Stands line col cs lx'.rest := by
  refine h.token hc (Nat.succ_pos depth) fun {lx₁ line col} hlx₁ hs _ => ?_
  obtain ⟨lx', hread, hlx', hrest, hallowed⟩ := hlx₁.readFlowEnd t
  have hs' := hs.tail (starts_spec c hc).1
  exact ⟨lx', (ht _).trans hread, hlx', hallowed, line, col + 1, hrest ▸ hs'⟩

theorem string {s : String} (hs : Quoted Rules.portable s text)
    (h : Reading lx ts depth (text ++ cs)) (hdepth : 0 < depth) :
    ∃ lx' line col, Reads text lx lx' ∧ Gathered lx' (ts ++ [.scalar .doubleQuoted s]) depth ∧
      Stands line (col + text.length) cs lx'.rest ∧ lx'.keyAllowed = false ∧
      (lx.keyAllowed = true → lx'.currentKey = some ⟨ts.length, line, col, false⟩) := by
  obtain ⟨tail, htext⟩ : ∃ tail, text = '"' :: tail := by cases hs; exact ⟨_, rfl⟩
  have hcons : text ++ cs = '"' :: (tail ++ cs) := by rw [htext, List.cons_append]
  rw [hcons] at h
  obtain ⟨lx', hreads, line, col, hlx'⟩ := h.token (by decide) hdepth
    (P := fun lx' => ∃ line col, Gathered lx' (ts ++ [Token.scalar .doubleQuoted s]) depth ∧
      Stands line (col + text.length) cs lx'.rest ∧ lx'.keyAllowed = false ∧
      (lx.keyAllowed = true → lx'.currentKey = some ⟨ts.length, line, col, false⟩))
    fun {lx₁ line col} hlx₁ hstands hallowed => by
      obtain ⟨lx', hread, hlx'⟩ := hlx₁.readQuotes hs (hcons ▸ hstands)
      exact ⟨lx', hread, line, col, hallowed ▸ hlx'⟩
  exact ⟨lx', line, col, hreads.mono (by simp [htext]), hlx'⟩

theorem flag (v : Bool) {gap : List Char} (hgap : gap ⊆ whitespace) (hc : c = ',' ∨ c = '\x7d')
    (h : Reading lx ts depth (flagText v ++ (gap ++ c :: cs))) (hdepth : 0 < depth) :
    ∃ lx', Reads (flagText v) lx lx' ∧
      Reading lx' (ts ++ [.scalar .plain (String.ofList (flagText v))]) depth (c :: cs) := by
  obtain ⟨first, tail, htext, hfirst, hreader⟩ : ∃ first tail, flagText v = first :: tail ∧
      first ∈ starts ∧ ∀ lx, reader first lx = V11.readWord lx := by
    cases v <;> exact ⟨_, _, rfl, by decide, fun _ => rfl⟩
  have hcons : flagText v ++ (gap ++ c :: cs) = first :: (tail ++ (gap ++ c :: cs)) := by
    rw [htext, List.cons_append]
  rw [hcons] at h
  obtain ⟨lx', hreads, hlx'⟩ := h.token hfirst hdepth
    (P := fun lx' =>
      Reading lx' (ts ++ [Token.scalar .plain (String.ofList (flagText v))]) depth (c :: cs))
    fun hlx₁ hstands _ => by
      obtain ⟨lx', line', col', hread, hlx', hrest⟩ :=
        hlx₁.readWord v hdepth hgap hc (hcons ▸ hstands)
      exact ⟨lx', (hreader _).trans hread, hlx'.reading hrest⟩
  exact ⟨lx', hreads.mono (by simp [htext]), hlx'⟩

end Reading

theorem Gathered.colon {t : Token} {line col width : Nat} {gap : List Char}
    (h : Gathered lx (ts ++ [t]) depth) (hdepth : 0 < depth) (hgap : gap ⊆ blanks)
    (hnear : width + gap.length ≤ 1024)
    (hs : Stands line (col + width) (gap ++ ':' :: cs) lx.rest) (hallowed : lx.keyAllowed = false)
    (hkey : lx.currentKey = some ⟨ts.length, line, col, false⟩) :
    ∃ lx', Reads [':'] lx lx' ∧ Reading lx' (ts ++ [.key, t, .value]) depth cs := by
  obtain ⟨s₁, s₂, hrest, hchars, hnone, hs₂⟩ :=
    hs.append fun x hx => breakAs_of_mem_blanks x (hgap hx)
  have hskip : skipToToken lx.inFlow lx.keyAllowed false lx.rest = (false, s₂) := by
    rw [hallowed, hrest, skipToToken_blanks, skipToToken_start (by decide) hs₂]
    exact fun p hp => ⟨hnone p hp, hgap (hchars ▸ List.mem_map_of_mem hp)⟩
  obtain ⟨lx₁, hto, hlx₁, hrest₁, -, hkept⟩ := h.toToken hskip
  rw [← hrest₁] at hs₂ hkept
  obtain ⟨fresh, hpeek⟩ := hs₂.peek_eq (by decide)
  have hfar : (⟨ts.length, line, col, false⟩ : PossibleKey).isTooFar (peek lx₁.rest 0) = false := by
    have hcol : ¬ col + 1024 < col + width + gap.length := by omega
    simp [hpeek, PossibleKey.isTooFar, hcol]
  obtain ⟨lx', hread, hlx', hrest'⟩ := hlx₁.readValue hdepth (hkept _ hkey hfar)
  have hreads : Reads [':'] lx lx' := by
    refine .token hto ?_ ?_
    · rw [Lexer.next, hpeek]
      rfl
    · rw [readToken_eq_reader (by decide) (fun _ => hlx₁.inFlow_of_pos hdepth) hs₂]
      exact hread
  exact ⟨lx', hreads, hlx'.reading (hrest'.symm ▸ hs₂.tail (by decide))⟩

/-- A key with its colon. The colon makes a key of the string read before. -/
theorem Reading.key {k : String} {key gap : List Char} (hkey : Quoted Rules.portable k key)
    (hgap : Rules.portable.colon key gap) (h : Reading lx ts depth (key ++ (gap ++ ':' :: cs)))
    (hdepth : 0 < depth) (hallowed : lx.keyAllowed = true) :
    ∃ lx', Reads (key ++ gap ++ [':']) lx lx' ∧
      Reading lx' (ts ++ [.key, .scalar .doubleQuoted k, .value]) depth cs := by
  obtain ⟨lx₁, line, col, hreads, hlx₁, hs, hnotAllowed, hcurrent⟩ := h.string hkey hdepth
  obtain ⟨lx', hcolon, hlx'⟩ :=
    hlx₁.colon hdepth hgap.1 hgap.2 hs hnotAllowed (hcurrent hallowed)
  have hlen : (key ++ [':']).length ≤ (key ++ gap ++ [':']).length := by
    simp
  exact ⟨lx', (hreads.trans hcolon).mono hlen, hlx'⟩

end Steps

end Preopt.Json
