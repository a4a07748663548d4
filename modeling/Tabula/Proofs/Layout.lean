import Tabula.Proofs.Concatenation

/-!
# Layout

What stands between the tokens of a text makes no difference: other blanks and comments may stand
there.

* `Token.Scans.across`: the tokens before a space are found whatever blanks and comments follow.
* `Token.words?_filler`: blanks and comments say nothing, and what follows is read as if it stood
  alone.
* `Statement.parse_relaid`: a text with another layout has the same tokens and is the same
  statements, or has the same fault.
-/

namespace Tabula

open Text

/-! ## Algorithm -/

/-- Blanks, and comments that end with their line, in any order. -/
inductive Filler : List Char → Prop where
  | nil : Filler []
  | blank {c : Char} {cs : List Char} : isBlank c = true → Filler cs → Filler (c :: cs)
  | comment {line cs : List Char} :
      '\n' ∉ line → Filler cs → Filler ('-' :: '-' :: line ++ '\n' :: cs)

namespace Token

/-- What tokens say: the kinds and lexemes of those that are no spaces. -/
def words (tokens : List Token) : List (TokenKind × String) :=
  (withoutSpaces tokens).map fun t => (t.kind, t.lexeme)

/-- What the tokens of a text say, wherever it stands. -/
def words? (cs : List Char) : Option (List (TokenKind × String)) :=
  (scanFrom 0 cs).toOption.map words

/-- All spaces between two tokens that are none, or at an end of the text. -/
structure Gap (before run after : List Token) : Prop where
  nonempty : run ≠ []
  spaces : ∀ t ∈ run, t.kind = .space
  before : ∀ t ∈ before.getLast?, t.kind ≠ .space
  after : ∀ t ∈ after.head?, t.kind ≠ .space

/-- Where tokens begin; where the text ends if there are none. -/
def start (tokens : List Token) (length : Nat) : Nat :=
  match tokens with
  | t :: _ => t.position
  | [] => length

/-- The text with other characters in place of those of a run of tokens. -/
def relaid (text : String) (run after : List Token) (filler : List Char) : String :=
  let cs := text.toList
  String.ofList (cs.take (start run cs.length) ++ filler ++ cs.drop (start after cs.length))

/-- Tokens that are found one after the other in a text, from a position on, if another text comes
after it. -/
inductive Scans : Nat → List Token → List Char → List Char → Prop where
  | nil {position : Nat} {v : List Char} : Scans position [] [] v
  | cons {position : Nat} {tokens : List Token} {w u v : List Char} {l : Lexeme} :
      Lexeme.first? (w ++ u ++ v) = some l → w.length = l.width →
      Scans (position + l.width) tokens u v →
      Scans position (⟨l.kind, String.ofList l.text, position⟩ :: tokens) (w ++ u) v

end Token

/-! ## Lemmas -/

/-! ### Where spaces begin -/

namespace Lexeme

/-- No token goes on with a blank. -/
theorem Closes.of_blank {c : Char} (h : isBlank c = true) (a rest : List Char) :
    Closes a (c :: rest) := by
  have hne : ∀ d : Char, isBlank d = false → c ≠ d := by
    rintro d hd rfl
    rw [h] at hd
    cases hd
  refine ⟨fun d hd => ?_, fun hhead => ?_, fun hhead => ?_⟩
  · obtain rfl := Option.some.inj hd
    refine ⟨isWordChar_of_isBlank h, fun hmem => ?_⟩
    simp only [List.mem_cons, List.not_mem_nil, or_false] at hmem
    rcases hmem with h | h | h | h | h | h | h <;> exact hne _ (by decide) h
  · exact absurd (Option.some.inj hhead) (hne ')' (by decide))
  · exact absurd (Option.some.inj hhead) (hne '-' (by decide))

/-- No token goes on with a comment. -/
theorem Closes.of_comment (a rest : List Char) : Closes a ('-' :: '-' :: rest) := by
  refine ⟨fun d hd => ?_, fun hhead => ?_, fun _ => rfl⟩
  · obtain rfl := Option.some.inj hd
    decide
  · exact absurd (Option.some.inj hhead) (by decide)

/-- No token goes on where a space begins. -/
theorem Closes.of_space {v : List Char} {l : Lexeme} (h : first? v = some l)
    (hkind : l.kind = .space) (a : List Char) : Closes a v := by
  have hcovers := (first?_exact h).covers
  rw [hkind] at hcovers
  rw [← List.take_append_drop l.width v]
  rcases hcovers.space with ⟨hne, hblank⟩ | ⟨line, -, hline⟩
  · obtain ⟨c, cs, hcs⟩ := List.exists_cons_of_ne_nil hne
    rw [hcs]
    exact .of_blank (hblank c (by rw [hcs]; exact List.mem_cons_self)) a _
  · rw [hline]
    exact .of_comment a _

end Lexeme

/-- No token goes on with blanks or comments. -/
theorem Filler.closes {filler : List Char} (h : Filler filler) (hne : filler ≠ [])
    (a rest : List Char) : Lexeme.Closes a (filler ++ rest) := by
  cases h with
  | nil => exact absurd rfl hne
  | blank hc _ => exact .of_blank hc a _
  | comment _ _ => exact .of_comment a _

/-- Blanks say nothing. -/
theorem Filler.of_blanks {cs : List Char} (h : ∀ c ∈ cs, isBlank c = true) : Filler cs := by
  induction cs with
  | nil => exact .nil
  | cons c cs ih =>
    obtain ⟨hc, hcs⟩ := List.forall_mem_cons.1 h
    exact .blank hc (ih hcs)

/-! ### What tokens say -/

namespace Token

theorem words_cons (t : Token) (tokens : List Token) :
    words (t :: tokens) =
      if t.kind = .space then words tokens else (t.kind, t.lexeme) :: words tokens := by
  rw [words, withoutSpaces_cons]
  split <;> rfl

theorem words_moved (f : Nat → Nat) (tokens : List Token) :
    words (tokens.map (Token.moved f)) = words tokens := by
  rw [words, withoutSpaces_moved, List.map_map]
  rfl

/-- Spaces say nothing. -/
theorem words_spaces {run : List Token} (h : ∀ t ∈ run, t.kind = .space) : words run = [] := by
  induction run with
  | nil => rfl
  | cons t run ih =>
    rw [words_cons, if_pos (h t List.mem_cons_self)]
    exact ih fun t' ht' => h t' (List.mem_cons_of_mem t ht')

theorem words?_at (position : Nat) (cs : List Char) :
    (scanFrom position cs).toOption.map words = words? cs := by
  have hmoved := scanFrom_moved 0 position cs
  rw [Nat.zero_add] at hmoved
  rw [hmoved, Option.map_map]
  exact congrArg (Option.map · _) (funext fun tokens => words_moved _ tokens)

/-- What the first token says comes before what the rest does. -/
theorem words?_of_first? {cs : List Char} {l : Lexeme} (h : Lexeme.first? cs = some l) :
    words? cs = (words? (cs.drop l.width)).map fun others =>
      if l.kind = .space then others else (l.kind, String.ofList l.text) :: others := by
  rw [← words?_at (0 + l.width) (cs.drop l.width), words?, scanFrom_of_first? h 0]
  cases scanFrom (0 + l.width) (cs.drop l.width) with
  | error fault => rfl
  | ok tokens => exact congrArg some (words_cons ..)

/-! ### Spaces say nothing -/

theorem words?_dropBlanks (cs : List Char) : words? (cs.dropWhile isBlank) = words? cs := by
  have hwords (found : Except Fault (List Token)) : found.toOption.map words =
      (withoutSpaces <$> found).toOption.map (·.map fun t => (t.kind, t.lexeme)) := by
    cases found <;> rfl
  rw [← words?_at (0 + (cs.takeWhile isBlank).length), hwords, ← scanFrom_dropBlanks, ← hwords]
  rfl

theorem words?_blank {c : Char} (h : isBlank c = true) (cs : List Char) :
    words? (c :: cs) = words? cs := by
  rw [← words?_dropBlanks (c :: cs), List.dropWhile_cons_of_pos h, words?_dropBlanks]

theorem words?_comment {line : List Char} (h : '\n' ∉ line) (cs : List Char) :
    words? ('-' :: '-' :: line ++ '\n' :: cs) = words? cs := by
  have hdrop : ('-' :: '-' :: line ++ '\n' :: cs).drop (line.length + 2) = '\n' :: cs := by
    simp
  rw [words?_of_first? (Lexeme.first?_comment h cs), hdrop, words?_blank (by decide)]
  simp

/-- Blanks and comments say nothing, whatever comes after them. -/
theorem words?_filler {filler : List Char} (h : Filler filler) (cs : List Char) :
    words? (filler ++ cs) = words? cs := by
  induction h with
  | nil => rfl
  | blank hc _ ih => rw [List.cons_append, words?_blank hc, ih]
  | comment hline _ ih =>
    rw [List.append_assoc]
    exact (words?_comment hline _).trans ih

/-! ### An edit in the middle of a text -/

/-- Tokens are found one after the other. -/
theorem scanFrom_cons {position : Nat} {cs : List Char} {t : Token} {tokens : List Token}
    (h : scanFrom position cs = .ok (t :: tokens)) :
    ∃ l, Lexeme.first? cs = some l ∧ t = ⟨l.kind, String.ofList l.text, position⟩ ∧
      scanFrom (position + l.width) (cs.drop l.width) = .ok tokens := by
  cases hfirst : Lexeme.first? cs with
  | none =>
    cases cs with
    | nil => rw [scanFrom] at h; cases h
    | cons c rest => rw [scanFrom, hfirst] at h; cases h
  | some l =>
    rw [scanFrom_of_first? hfirst] at h
    obtain ⟨others, hothers, heq⟩ := bind_eq_ok.1 h
    obtain ⟨rfl, rfl⟩ := List.cons.inj (Except.ok.inj heq)
    exact ⟨l, rfl, rfl, hothers⟩

/-- The tokens of a text begin where it does. -/
theorem start_of_scanFrom {position : Nat} {cs : List Char} {tokens : List Token}
    (h : scanFrom position cs = .ok tokens) : start tokens (position + cs.length) = position := by
  cases tokens with
  | cons t tokens =>
    obtain ⟨l, -, rfl, -⟩ := scanFrom_cons h
    rfl
  | nil =>
    cases scanFrom_tiles position cs h
    rfl

/-- The text is divided where its tokens are. -/
theorem scanFrom_divided {tokens others : List Token} :
    ∀ {position : Nat} {cs : List Char}, scanFrom position cs = .ok (tokens ++ others) →
      ∃ u v, cs = u ++ v ∧ Scans position tokens u v ∧
        scanFrom (position + u.length) v = .ok others := by
  induction tokens with
  | nil =>
    intro position cs h
    exact ⟨[], cs, rfl, .nil, h⟩
  | cons t tokens ih =>
    intro position cs h
    obtain ⟨l, hfirst, rfl, hrest⟩ := scanFrom_cons h
    obtain ⟨u, v, hsplit, hscans, hothers⟩ := ih hrest
    have hlen : (cs.take l.width).length = l.width :=
      List.length_take_of_le (Lexeme.first?_exact hfirst).fits
    have hwhole : cs = cs.take l.width ++ u ++ v := by
      rw [List.append_assoc, ← hsplit, List.take_append_drop]
    refine ⟨cs.take l.width ++ u, v, hwhole, .cons (by rw [← hwhole, hfirst]) hlen hscans, ?_⟩
    rw [List.length_append, hlen, ← Nat.add_assoc]
    exact hothers

/-- Tokens say the same whatever comes after them, as long as they are found. -/
theorem Scans.words? {position : Nat} {tokens : List Token} {u v : List Char}
    (h : Scans position tokens u v) :
    Token.words? (u ++ v) = (Token.words? v).map (words tokens ++ ·) := by
  induction h with
  | nil => exact Option.map_id'.symm
  | @cons position tokens w u v l hfirst hlen _ ih =>
    have hdrop : (w ++ u ++ v).drop l.width = u ++ v := by
      rw [List.append_assoc, ← hlen, List.drop_left]
    rw [words?_of_first? hfirst, hdrop, ih, Option.map_map]
    refine congrArg (Option.map · _) (funext fun others => ?_)
    rw [Function.comp_apply, words_cons]
    split <;> rfl

theorem Scans.ne_nil {position : Nat} {t : Token} {tokens : List Token} {u v : List Char}
    (h : Scans position (t :: tokens) u v) : u ≠ [] := by
  cases h with
  | @cons _ _ w _ _ l _ hlen _ =>
    intro hnil
    have := l.width_pos
    rw [(List.append_eq_nil_iff.1 hnil).1, List.length_nil] at hlen
    omega

/-- Tokens before one place where no token goes on are found before any other such place, if the
last of them is no space. -/
theorem Scans.across {position : Nat} {tokens : List Token} {u v v' : List Char}
    (h : Scans position tokens u v) (hlast : ∀ t ∈ tokens.getLast?, t.kind ≠ .space)
    (hv : ∀ a, Lexeme.Closes a v) (hv' : ∀ a, Lexeme.Closes a v') :
    Scans position tokens u v' := by
  induction h with
  | nil => exact .nil
  | @cons position tokens w u v l hfirst hlen hrest ih =>
    have hle : l.width ≤ (w ++ u).length := by
      rw [List.length_append]
      omega
    have hspace : l.kind = .space → l.width < (w ++ u).length := by
      intro hkind
      cases tokens with
      | nil => exact absurd hkind (hlast _ rfl)
      | cons t tokens =>
        have := List.length_pos_iff.2 hrest.ne_nil
        rw [List.length_append]
        omega
    have hlater : ∀ t ∈ tokens.getLast?, t.kind ≠ .space := by
      intro t ht
      refine hlast t ?_
      rw [List.getLast?_cons, Option.mem_def.1 ht]
      rfl
    have halone := Lexeme.first?_restrict (hv (w ++ u)).apart hfirst hle
    exact .cons (Lexeme.first?_append_of_closes (hv' (w ++ u)) halone hspace) hlen (ih hlater hv)

end Token

/-- Tokens that say the same are the same statements, or have the same fault. -/
theorem Statement.ofTokens_congr {tokens tokens' : List Token}
    (h : Token.words tokens = Token.words tokens') :
    ofTokens (Token.withoutSpaces tokens) = ofTokens (Token.withoutSpaces tokens') := by
  have hwords (tokens : List Token) : (Token.withoutSpaces tokens).map (Token.moved fun _ => 0) =
      (Token.words tokens).map fun w => ⟨w.1, w.2, 0⟩ := by
    rw [Token.words, List.map_map]
    rfl
  rw [← ofTokens_moved (Token.withoutSpaces tokens) fun _ => 0, hwords, h, ← hwords,
    ofTokens_moved]

/-! ## Top theorem -/

/-- Layout does not matter: with other blanks and comments in place of all spaces between two
tokens, a text has the same tokens, and is the same statements or has the same fault. -/
theorem Statement.parse_relaid {text : String} {before run after : List Token}
    {filler : List Char} (hscan : Token.scan text = .ok (before ++ run ++ after))
    (hgap : Token.Gap before run after) (hfiller : Filler filler) (hne : filler ≠ []) :
    ∃ tokens, Token.scan (Token.relaid text run after filler) = .ok tokens ∧
      Token.words tokens = Token.words (before ++ run ++ after) ∧
      parse (Token.relaid text run after filler) = parse text := by
  rw [List.append_assoc] at hscan ⊢
  obtain ⟨u, v, hu, hbefore, hv⟩ := Token.scanFrom_divided hscan
  obtain ⟨m, x, rfl, hrun, hx⟩ := Token.scanFrom_divided hv
  -- the run is what stands between `u` and `x`
  have hstart : Token.start run text.toList.length = u.length := by
    have hfrom := Token.start_of_scanFrom hv
    cases run with
    | nil => exact absurd rfl hgap.nonempty
    | cons s run => exact (Nat.zero_add u.length) ▸ hfrom
  have hstop : Token.start after text.toList.length = (u ++ m).length := by
    have hfrom := Token.start_of_scanFrom hx
    rw [Nat.zero_add] at hfrom
    rw [hu, ← List.append_assoc, List.length_append, List.length_append]
    exact hfrom
  have hrelaid : (Token.relaid text run after filler).toList = u ++ (filler ++ x) := by
    rw [Token.relaid, hstart, hstop, String.toList_ofList, hu, List.take_left, ← List.append_assoc,
      List.drop_left, List.append_assoc]
  have hspace : ∀ a, Lexeme.Closes a (m ++ x) := by
    cases hrun with
    | nil => exact absurd rfl hgap.nonempty
    | cons hfirst _ _ => exact .of_space hfirst (hgap.spaces _ List.mem_cons_self)
  have hacross := hbefore.across hgap.before hspace fun a => hfiller.closes hne a x
  -- both texts say what stands before the run and after it
  have hsame : Token.words? (Token.relaid text run after filler).toList =
      Token.words? text.toList := by
    rw [hrelaid, hu, hacross.words?, hbefore.words?, Token.words?_filler hfiller, hrun.words?,
      Token.words_spaces hgap.spaces]
    exact congrArg (Option.map _) Option.map_id'.symm
  have hwords : Token.words? text.toList = some (Token.words (before ++ (run ++ after))) := by
    rw [Token.words?, show Token.scanFrom 0 text.toList = _ from hscan]
    rfl
  rw [hwords] at hsame
  obtain ⟨tokens, htokens, heq⟩ := Option.map_eq_some_iff.1 hsame
  cases hscan' : Token.scan (Token.relaid text run after filler) with
  | error fault =>
    rw [show Token.scanFrom 0 _ = _ from hscan'] at htokens
    cases htokens
  | ok tokens' =>
    rw [show Token.scanFrom 0 _ = _ from hscan'] at htokens
    obtain rfl := Option.some.inj htokens
    refine ⟨tokens', rfl, heq, ?_⟩
    rw [parse, parse, hscan, hscan']
    exact ofTokens_congr heq

/-- A comment in place of a blank, a comment and a line break, right after a name. -/
theorem parse_relaid_of_comment :
    ∃ before run after,
      Token.scan "TRUNCATE t --all\n ;DROP TABLE t" = .ok (before ++ run ++ after) ∧
      Token.Gap before run after ∧ Filler ['-', '-', '\n'] ∧
      Statement.parse "TRUNCATE t--\n;DROP TABLE t" =
        Statement.parse "TRUNCATE t --all\n ;DROP TABLE t" := by
  let before : List Token :=
    [⟨.keyword .truncate, "TRUNCATE", 0⟩, ⟨.space, " ", 8⟩, ⟨.identifier, "t", 9⟩]
  let run : List Token := [⟨.space, " ", 10⟩, ⟨.space, " ", 11⟩, ⟨.space, " ", 16⟩]
  let after : List Token :=
    [⟨.semicolon, ";", 18⟩, ⟨.keyword .drop, "DROP", 19⟩, ⟨.space, " ", 23⟩,
      ⟨.keyword .table, "TABLE", 24⟩, ⟨.space, " ", 29⟩, ⟨.identifier, "t", 30⟩]
  have hscan : Token.scan "TRUNCATE t --all\n ;DROP TABLE t" = .ok (before ++ run ++ after) := by
    decide +kernel
  have hgap : Token.Gap before run after := ⟨by decide, by decide, by decide, by decide⟩
  have hfiller : Filler ['-', '-', '\n'] := @Filler.comment [] [] (by simp) .nil
  obtain ⟨_, -, -, hparse⟩ := Statement.parse_relaid hscan hgap hfiller (by simp)
  exact ⟨before, run, after, hscan, hgap, hfiller, hparse⟩

end Tabula
