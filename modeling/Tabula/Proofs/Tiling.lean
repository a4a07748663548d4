import Tabula.Proofs.Lookahead

/-!
# Tokens tile the text

`Token.Covers` says which characters a token stands for, and `Token.Tiling` that tokens stand for
all characters of a text in their order.

* `Lexeme.first?_exact`: a rule advances by the characters that its token stands for, and no word
  goes on beyond them.
* `Token.scanFrom_tiles`, `Token.scanFrom_stuck`: one token after the other, and the place where
  no rule applies.
* `Token.scan_tiles`: a text is tiled by its tokens, or its beginning is lexed up to the place and
  the rest that the error names.
-/

namespace Tabula

open Text

/-! ## Algorithm -/

/-- A text that begins with no blank, quote or dollar. -/
def Lexeme.Bare (text : List Char) : Prop :=
  ∃ c rest, text = c :: rest ∧ isBlank c = false ∧ c ∉ ['\x27', '"', '\x60', '$']

/-- The characters of a token of a kind with a text. -/
inductive Lexeme.Covers : TokenKind → List Char → List Char → Prop where
  | blanks {slice : List Char} :
      slice ≠ [] → (∀ c ∈ slice, isBlank c = true) → Covers .space [' '] slice
  | comment {line : List Char} : '\n' ∉ line → Covers .space [' '] ('-' :: '-' :: line)
  | plain {kind : TokenKind} {text : List Char} :
      kind ∉ [.space, .string, .quotedIdent] → Bare text → Covers kind text text
  | quoted {quote : Char} {kind : TokenKind} {text : List Char} :
      (quote, kind) ∈ quotes → Covers kind text (quote :: doubled quote text ++ [quote])
  | dollar {text : List Char} :
      Covers (dollarKind text) text ('$' :: '$' :: text ++ ['$', '$'])

/-- Where the token after a place begins, or where the text ends. -/
def Token.next (tokens : List Token) (length i : Nat) : Nat :=
  match tokens[i + 1]? with
  | some t => t.position
  | none => length

/-- The characters from a token to the next one or to the end of the text. -/
def Token.slice (tokens : List Token) (cs : List Char) (i : Nat) (t : Token) : List Char :=
  (cs.take (next tokens cs.length i)).drop t.position

/-- Tokens that stand for the characters of a text, each for its own. -/
structure Token.Tiling (tokens : List Token) (cs : List Char) : Prop where
  first : cs ≠ [] → ∃ t, tokens.head? = some t ∧ t.position = 0
  increasing : tokens.Pairwise (·.position < ·.position)
  covered : ∀ i t, tokens[i]? = some t →
    Lexeme.Covers t.kind t.lexeme.toList (slice tokens cs i t)

/-- Tokens that stand for the characters of a text one after the other, from a position on. -/
inductive Token.Tiles : Nat → List Token → List Char → Prop where
  | nil {position : Nat} : Tiles position [] []
  | cons {position : Nat} {t : Token} {tokens : List Token} {w rest : List Char} :
      t.position = position → Lexeme.Covers t.kind t.lexeme.toList w →
      Tiles (position + w.length) tokens rest → Tiles position (t :: tokens) (w ++ rest)

/-- A rule advances by the characters of its token, and no word goes on beyond them. -/
structure Lexeme.Exact (l : Lexeme) (cs : List Char) : Prop where
  fits : l.width ≤ cs.length
  covers : Covers l.kind l.text (cs.take l.width)
  bounded : startsInWord (cs.drop l.width) = true →
    ∀ c ∈ (cs.take l.width).getLast?, isWordChar c = false

/-! ## Lemmas -/

/-! ### Every rule is exact -/

namespace Lexeme

theorem bare_of_ordinary {c : Char} (h : Ordinary c) (rest : List Char) : Bare (c :: rest) := by
  refine ⟨c, rest, rfl, h.blank, fun hmem => h.mark ?_⟩
  simp only [List.mem_cons, List.not_mem_nil, or_false] at hmem ⊢
  rcases hmem with h | h | h | h <;> simp [h]

theorem bare_of_isWordStart {c : Char} (h : isWordStart c = true) (rest : List Char) :
    Bare (c :: rest) := by
  refine bare_of_ordinary (ordinary_of_isWordStart ?_ h) rest
  cases hblank : isBlank c with
  | false => rfl
  | true =>
    have hword := isWordChar_of_isWordStart h
    rw [isWordChar_of_isBlank hblank] at hword
    cases hword

/-- A space is a row of blanks or a comment. -/
theorem Covers.space {text slice : List Char} (h : Covers .space text slice) :
    (slice ≠ [] ∧ ∀ c ∈ slice, isBlank c = true) ∨
      ∃ line, '\n' ∉ line ∧ slice = '-' :: '-' :: line := by
  generalize hkind : TokenKind.space = kind at h
  cases h with
  | blanks hne hall => exact .inl ⟨hne, hall⟩
  | comment hline => exact .inr ⟨_, hline, rfl⟩
  | plain hplain _ =>
    rw [← hkind] at hplain
    exact absurd hplain (by decide)
  | quoted hquote =>
    rw [← hkind] at hquote
    simp [quotes] at hquote
  | dollar => exact absurd hkind.symm (dollarKind_ne_space text)

/-- What is known of a rule that takes `w` off the beginning of a text. -/
theorem Exact.of_split {l : Lexeme} {cs w v : List Char} (hcs : cs = w ++ v)
    (hwidth : l.width = w.length) (hcovers : Covers l.kind l.text w)
    (hbounded : startsInWord v = true → ∀ c ∈ w.getLast?, isWordChar c = false) :
    l.Exact cs := by
  subst hcs
  refine ⟨by simp [hwidth], ?_, ?_⟩
  · rwa [hwidth, List.take_left]
  · rwa [hwidth, List.take_left, List.drop_left]

/-- What is left after a run begins with no character of a word, if such characters belong to the
run. -/
theorem startsInWord_dropWhile {p : Char → Bool} (hp : ∀ c, isWordChar c = true → p c = true)
    (cs : List Char) : startsInWord (cs.dropWhile p) = false := by
  cases hdrop : cs.dropWhile p with
  | nil => rfl
  | cons c rest =>
    have hhead : p c = false := by
      have hnot := List.head?_dropWhile_not p cs
      rwa [hdrop] at hnot
    cases hc : isWordChar c with
    | false => exact hc
    | true =>
      rw [hp c hc] at hhead
      cases hhead

theorem space?_exact {cs : List Char} {l : Lexeme} (h : space? cs = some l) : l.Exact cs := by
  unfold space? at h
  split at h
  · cases h
  · next c rest =>
    split at h
    · next hc =>
      obtain rfl := Option.some.inj h
      have hall : ∀ d ∈ c :: rest.takeWhile isBlank, isBlank d = true := by
        intro d hd
        rcases List.mem_cons.1 hd with rfl | hd
        · exact hc
        · exact List.mem_takeWhile_imp hd
      refine Exact.of_split (w := c :: rest.takeWhile isBlank) (v := rest.dropWhile isBlank) ?_
        rfl (.blanks (List.cons_ne_nil _ _) hall) fun _ d hd => ?_
      · rw [List.cons_append, List.takeWhile_append_dropWhile]
      · exact isWordChar_of_isBlank (hall d (List.mem_of_getLast? hd))
    · cases h

theorem comment?_exact {cs : List Char} {l : Lexeme} (h : comment? cs = some l) : l.Exact cs := by
  obtain ⟨-, rest, rfl⟩ := comment?_eq_some h
  rw [comment?_hyphens] at h
  obtain rfl := Option.some.inj h
  have hline : '\n' ∉ rest.takeWhile (· != '\n') := fun hmem =>
    absurd (List.mem_takeWhile_imp hmem) (by decide)
  refine Exact.of_split (w := '-' :: '-' :: rest.takeWhile (· != '\n'))
    (v := rest.dropWhile (· != '\n')) ?_ rfl (.comment hline) fun hword => ?_
  · rw [List.cons_append, List.cons_append, List.takeWhile_append_dropWhile]
  · rw [startsInWord_dropWhile] at hword
    · cases hword
    · intro c hc
      rw [bne_iff_ne]
      rintro rfl
      exact absurd hc (by decide)

theorem mark?_exact {cs : List Char} {l : Lexeme} (h : mark? cs = some l) : l.Exact cs := by
  unfold mark? at h
  split at h
  case h_5 c rest _ _ _ _ =>
    obtain ⟨k, hk, rfl⟩ := Option.map_eq_some_iff.1 h
    have hmark : k ∉ [.space, .string, .quotedIdent] ∧ isWordChar c = false ∧
        isBlank c = false ∧ c ∉ ['\x27', '"', '\x60', '$'] := by
      split at hk <;> cases hk <;> exact ⟨by decide, by decide, by decide, by decide⟩
    obtain ⟨hkind, hword, hbare⟩ := hmark
    refine Exact.of_split (w := [c]) rfl rfl (.plain hkind ⟨c, [], rfl, hbare⟩) ?_
    intro _ d hd
    obtain rfl := Option.some.inj hd
    exact hword
  case h_6 => cases h
  all_goals
    obtain rfl := Option.some.inj h
    refine Exact.of_split (w := [_, _]) rfl rfl
      (.plain (by decide) ⟨_, _, rfl, by decide, by decide⟩) ?_
    intro _ d hd
    obtain rfl := Option.some.inj hd
    decide

theorem quoted?_exact {quote : Char} {kind : TokenKind} (hquote : (quote, kind) ∈ quotes)
    {cs : List Char} {l : Lexeme} (h : quoted? quote kind cs = some l) : l.Exact cs := by
  unfold quoted? at h
  split at h
  · cases h
  · next c rest =>
    split at h
    · next hc =>
      subst hc
      obtain ⟨⟨text, n⟩, hfound, rfl⟩ := Option.map_eq_some_iff.1 h
      obtain ⟨tail, rfl, rfl, -⟩ := quotedText?_eq_some.1 hfound
      refine Exact.of_split (w := c :: doubled c text ++ [c]) (v := tail) (by simp) (by simp)
        (.quoted hquote) fun _ d hd => ?_
      rw [List.getLast?_concat] at hd
      obtain rfl := Option.some.inj hd
      simp only [quotes, List.mem_cons, List.not_mem_nil, or_false, Prod.mk.injEq] at hquote
      rcases hquote with ⟨rfl, -⟩ | ⟨rfl, -⟩ | ⟨rfl, -⟩ <;> decide
    · cases h

theorem dollar?_exact {cs : List Char} {l : Lexeme} (h : dollar? cs = some l) : l.Exact cs := by
  obtain ⟨rest, text, hwidth, rfl, htext, rfl⟩ := dollar?_eq_some h
  obtain ⟨-, tail, rfl⟩ := dollarText?_eq_some.1 htext
  refine Exact.of_split (w := '$' :: '$' :: text ++ ['$', '$']) (v := tail) (by simp) (by simp)
    .dollar fun _ d hd => ?_
  rw [List.getLast?_append_of_ne_nil _ (List.cons_ne_nil _ _)] at hd
  obtain rfl := Option.some.inj hd
  decide

theorem now?_exact {cs : List Char} {l : Lexeme} (h : now? cs = some l) : l.Exact cs := by
  have hlen := (now?_eq_some h).2
  unfold now? at h
  split at h
  · next heq =>
    obtain rfl := Option.some.inj h
    obtain ⟨c, rest, htake, hc, -⟩ := List.map_eq_cons_iff.1 heq
    have hbare : Bare (cs.take 5) := by
      rw [htake]
      exact bare_of_isWordStart (isWordStart_of_toLower (by decide) hc) rest
    refine Exact.of_split (List.take_append_drop 5 cs).symm (by simp [hlen])
      (.plain (by simp) hbare) fun _ d hd => ?_
    have hlast := congrArg List.getLast? heq
    rw [List.getLast?_map, hd] at hlast
    have hparen := eq_of_toLower (by decide) (Option.some.inj hlast)
    rw [hparen]
    decide
  · cases h

theorem date?_exact {cs : List Char} {l : Lexeme} (h : date? cs = some l) : l.Exact cs := by
  have hlen := (date?_eq_some h).2.2
  unfold date? at h
  dsimp only at h
  split at h
  · next hdate =>
    obtain rfl := Option.some.inj h
    simp only [Bool.and_eq_true, Bool.not_eq_true'] at hdate
    obtain ⟨a, _, _, _, _, _, _, _, htake, hdigits⟩ := hasDateShape_eq hdate.1.1
    have hbare : Bare (cs.take 10) := by
      rw [htake]
      exact bare_of_ordinary (ordinary_of_isDigit (hdigits a List.mem_cons_self)) _
    refine Exact.of_split (List.take_append_drop 10 cs).symm (by simp [hlen])
      (.plain (by simp) hbare) fun hword => ?_
    rw [hdate.1.2] at hword
    cases hword
  · cases h

theorem unsigned?_exact {sign rest : List Char} (hsign : sign = [] ∨ sign = ['-']) {l : Lexeme}
    (h : unsigned? sign rest = some l) : l.Exact (sign ++ rest) := by
  unfold unsigned? at h
  split at h
  · cases h
  · next d ds heq =>
    split at h
    · next hd =>
      obtain rfl := Option.some.inj h
      simp only [Bool.and_eq_true, Bool.not_eq_true'] at hd
      obtain ⟨tail, htail⟩ := numeral_begins rest
      rw [heq] at htail
      subst htail
      have hbare : Bare (sign ++ d :: ds) := by
        rcases hsign with rfl | rfl
        · exact bare_of_ordinary (ordinary_of_isDigit hd.1) ds
        · exact ⟨_, _, rfl, by decide, by decide⟩
      refine Exact.of_split (w := sign ++ d :: ds) (v := tail) (by simp)
        (by simp [Nat.add_assoc]) (.plain (by simp) hbare) fun hword => ?_
      have hdrop : (d :: ds ++ tail).drop (ds.length + 1) = tail := List.drop_left
      rw [hdrop, hword] at hd
      cases hd.2
    · cases h

theorem number?_exact {cs : List Char} {l : Lexeme} (h : number? cs = some l) : l.Exact cs := by
  by_cases hhead : cs.head? = some '-'
  · obtain ⟨rest, rfl⟩ := List.head?_eq_some_iff.1 hhead
    rw [number?_signed] at h
    exact unsigned?_exact (.inr rfl) h
  · rw [number?_unsigned hhead] at h
    exact unsigned?_exact (.inl rfl) h

theorem word?_exact {cs : List Char} {l : Lexeme} (h : word? cs = some l) : l.Exact cs := by
  unfold word? at h
  split at h
  · cases h
  · next c rest =>
    split at h
    · next hc =>
      obtain rfl := Option.some.inj h
      refine Exact.of_split (w := c :: rest.takeWhile isWordChar)
        (v := rest.dropWhile isWordChar) ?_ rfl (.plain ?_ (bare_of_isWordStart hc _))
        fun hword => ?_
      · rw [List.cons_append, List.takeWhile_append_dropWhile]
      · dsimp only
        split <;> simp
      · rw [startsInWord_dropWhile fun _ hc => hc] at hword
        cases hword
    · cases h

theorem first?_exact {cs : List Char} {l : Lexeme} (h : first? cs = some l) : l.Exact cs := by
  obtain ⟨rule, hrule, hl⟩ := List.exists_of_findSome?_eq_some h
  simp only [rules, List.mem_cons, List.not_mem_nil, or_false] at hrule
  rcases hrule with rfl | rfl | rfl | rfl | rfl | rfl | rfl | rfl | rfl | rfl | rfl
  · exact space?_exact hl
  · exact comment?_exact hl
  · exact mark?_exact hl
  · exact quoted?_exact (by decide) hl
  · exact quoted?_exact (by decide) hl
  · exact quoted?_exact (by decide) hl
  · exact dollar?_exact hl
  · exact now?_exact hl
  · exact date?_exact hl
  · exact number?_exact hl
  · exact word?_exact hl

end Lexeme

/-! ### One token after the other -/

namespace Token

/-- The tokens that a text is scanned to tile it. -/
theorem scanFrom_tiles (position : Nat) (cs : List Char) :
    ∀ {tokens : List Token}, scanFrom position cs = .ok tokens → Tiles position tokens cs := by
  fun_induction scanFrom position cs with
  | case1 position =>
    intro tokens h
    obtain rfl := Except.ok.inj h
    exact .nil
  | case2 position c rest => intro tokens h; cases h
  | case3 position c rest l hfirst ih =>
    intro tokens h
    obtain ⟨others, hothers, h⟩ := bind_eq_ok.1 h
    obtain rfl := Except.ok.inj h
    have hexact := Lexeme.first?_exact hfirst
    have hlen : ((c :: rest).take l.width).length = l.width := by
      rw [List.length_take, Nat.min_eq_left hexact.fits]
    rw [← List.take_append_drop l.width (c :: rest)]
    refine Tiles.cons rfl ?_ ?_
    · rw [String.toList_ofList]
      exact hexact.covers
    · rw [hlen]
      exact ih hothers

/-- The characters of a token are at least one. -/
theorem covers_ne_nil {kind : TokenKind} {text slice : List Char}
    (h : Lexeme.Covers kind text slice) : slice ≠ [] := by
  cases h with
  | blanks hne _ => exact hne
  | comment _ => exact List.cons_ne_nil _ _
  | plain _ hbare =>
    obtain ⟨_, _, rfl, -⟩ := hbare
    exact List.cons_ne_nil _ _
  | quoted _ => exact List.cons_ne_nil _ _
  | dollar => exact List.cons_ne_nil _ _

theorem Tiles.head {position : Nat} {tokens : List Token} {cs : List Char}
    (h : Tiles position tokens cs) (hne : cs ≠ []) :
    ∃ t, tokens.head? = some t ∧ t.position = position := by
  cases h with
  | nil => exact absurd rfl hne
  | cons hposition _ _ => exact ⟨_, rfl, hposition⟩

/-- No token begins before the position from which the text is tiled. -/
theorem Tiles.le {position : Nat} {tokens : List Token} {cs : List Char}
    (h : Tiles position tokens cs) : ∀ t ∈ tokens, position ≤ t.position := by
  induction h with
  | nil => intro t ht; cases ht
  | cons hposition _ _ ih =>
    intro t ht
    rcases List.mem_cons.1 ht with rfl | ht
    · exact Nat.le_of_eq hposition.symm
    · have := ih t ht
      omega

theorem Tiles.increasing {position : Nat} {tokens : List Token} {cs : List Char}
    (h : Tiles position tokens cs) : tokens.Pairwise (·.position < ·.position) := by
  induction h with
  | nil => exact .nil
  | cons hposition hcovers hrest ih =>
    refine List.pairwise_cons.2 ⟨fun t ht => ?_, ih⟩
    have hpos := List.length_pos_iff.2 (covers_ne_nil hcovers)
    have := hrest.le t ht
    omega

/-- Every token covers the characters up to the next one, whatever stands before the text. -/
theorem Tiles.covered {position : Nat} {tokens : List Token} {cs : List Char}
    (h : Tiles position tokens cs) :
    ∀ before : List Char, before.length = position → ∀ i t, tokens[i]? = some t →
      Lexeme.Covers t.kind t.lexeme.toList (slice tokens (before ++ cs) i t) := by
  induction h with
  | nil => intro before _ i t ht; cases ht
  | @cons position t₀ tokens w rest hposition hcovers hrest ih =>
    intro before hbefore i t ht
    cases i with
    | zero =>
      obtain rfl := Option.some.inj ht
      have hnext : next (t₀ :: tokens) (before ++ (w ++ rest)).length 0 = (before ++ w).length := by
        rw [next, List.getElem?_cons_succ]
        cases hrest with
        | nil => simp
        | cons hnext _ _ => simp [hnext, hbefore]
      rw [slice, hnext, ← List.append_assoc, List.take_left, hposition, ← hbefore, List.drop_left]
      exact hcovers
    | succ i =>
      have hlater := ih (before ++ w) (by simp [hbefore]) i t ht
      rw [List.append_assoc] at hlater
      exact hlater

end Token

/-! ### Where no rule applies -/

/-- No word, number or mark goes on where no rule applies. -/
theorem Lexeme.Apart.of_stuck {a b : List Char} (h : first? b = none)
    (hword : startsInWord b = true → ∀ c ∈ a.getLast?, isWordChar c = false) : Apart a b := by
  refine ⟨fun c hc => ?_, hword⟩
  obtain ⟨rest, rfl⟩ := List.head?_eq_some_iff.1 hc
  constructor
  · cases hdigit : c.isDigit with
    | false => rfl
    | true =>
      exfalso
      have hordinary := ordinary_of_isDigit hdigit
      have hstart : isWordStart c = true := by rw [isWordStart, hdigit, Bool.or_true]
      rw [first?_ordinary hordinary, Option.or_eq_none_iff, Option.or_eq_none_iff,
        Option.or_eq_none_iff, word?, if_pos hstart] at h
      cases h.2.2.2
  · intro hmark
    have hsub : c ∈ [';', ',', '(', ')', '*', '.', '=', '<', '>'] ∧
        c ∈ [';', ',', '(', ')', '*', '.', '=', '<', '>', '!'] := by
      simp only [List.mem_cons, List.not_mem_nil, or_false] at hmark
      rcases hmark with rfl | rfl | rfl <;> simp
    have hsome := mark?_isSome hsub.1 rest
    rw [first?_mark hsub.2] at h
    rw [h] at hsome
    cases hsome

namespace Token

/-- A text is scanned up to where no rule applies, and what stands before is scanned alone. -/
theorem scanFrom_stuck (position : Nat) (cs : List Char) :
    ∀ {fault : Fault}, scanFrom position cs = .error fault →
      ∃ a b tokens, cs = a ++ b ∧ Lexeme.first? b = none ∧ b ≠ [] ∧ Lexeme.Apart a b ∧
        fault = .unlexable (position + a.length) (String.ofList b) ∧
        scanFrom position a = .ok tokens := by
  fun_induction scanFrom position cs with
  | case1 position => intro fault h; cases h
  | case2 position c rest hfirst =>
    intro fault h
    obtain rfl := Except.error.inj h
    exact ⟨[], c :: rest, [], rfl, hfirst, List.cons_ne_nil _ _,
      .of_stuck hfirst fun _ d hd => absurd hd (by simp), rfl, by rw [scanFrom]⟩
  | case3 position c rest l hfirst ih =>
    intro fault h
    have hfault : scanFrom (position + l.width) ((c :: rest).drop l.width) = .error fault := by
      cases hrest : scanFrom (position + l.width) ((c :: rest).drop l.width) with
      | error fault' =>
        rw [hrest] at h
        exact h
      | ok others =>
        rw [hrest] at h
        cases h
    obtain ⟨a, b, tokens, hsplit, hnone, hne, hapart, rfl, hscan⟩ := ih hfault
    have hexact := Lexeme.first?_exact hfirst
    have hwhole : c :: rest = (c :: rest).take l.width ++ a ++ b := by
      rw [List.append_assoc, ← hsplit, List.take_append_drop]
    have hlen : ((c :: rest).take l.width).length = l.width := by
      rw [List.length_take, Nat.min_eq_left hexact.fits]
    -- no word goes on beyond the token, and none beyond what was scanned after it
    have hcut : Lexeme.Apart ((c :: rest).take l.width ++ a) b := by
      refine .of_stuck hnone fun hword => ?_
      cases a with
      | nil =>
        rw [List.append_nil]
        exact hexact.bounded (by rw [hsplit]; exact hword)
      | cons e a =>
        rw [List.getLast?_append_of_ne_nil _ (List.cons_ne_nil e a)]
        exact hapart.word hword
    have hprefix : Lexeme.first? ((c :: rest).take l.width ++ a) = some l := by
      refine Lexeme.first?_restrict hcut (by rw [← hwhole]; exact hfirst) ?_
      rw [List.length_append, hlen]
      omega
    refine ⟨(c :: rest).take l.width ++ a, b,
      ⟨l.kind, String.ofList l.text, position⟩ :: tokens, hwhole, hnone, hne, hcut, ?_, ?_⟩
    · rw [List.length_append, hlen, Nat.add_assoc]
    · have hdrop : ((c :: rest).take l.width ++ a).drop l.width = a := by
        conv => lhs; arg 1; rw [← hlen]
        rw [List.drop_left]
      rw [scanFrom_of_first? hprefix, hdrop, hscan]
      rfl

/-! ## Top theorem -/

/-- The tokens of a text tile it.  Where no rule applies, the error names the place and all that is
left, and the text up to there is scanned. -/
theorem scan_tiles (text : String) :
    (∃ tokens, scan text = .ok tokens ∧ Tiling tokens text.toList) ∨
      ∃ position remainder, scan text = .error (.unlexable position remainder) ∧
        position < text.length ∧ remainder.toList = text.toList.drop position ∧
        ∃ tokens, scan (String.ofList (text.toList.take position)) = .ok tokens := by
  cases hscan : scan text with
  | ok tokens =>
    have htiles := scanFrom_tiles 0 text.toList hscan
    exact .inl ⟨tokens, rfl, htiles.head, htiles.increasing, htiles.covered [] rfl⟩
  | error fault =>
    obtain ⟨a, b, tokens, hsplit, -, hne, -, rfl, ha⟩ := scanFrom_stuck 0 text.toList hscan
    have hpos := List.length_pos_iff.2 hne
    refine .inr ⟨0 + a.length, String.ofList b, rfl, ?_, ?_, tokens, ?_⟩
    · rw [← String.length_toList, hsplit, List.length_append]
      omega
    · rw [String.toList_ofList, Nat.zero_add, hsplit, List.drop_left]
    · rw [scan, String.toList_ofList, Nat.zero_add, hsplit, List.take_left]
      exact ha

end Token

end Tabula
