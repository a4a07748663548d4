import Tabula.Proofs.Lexing
import Tabula.Statement.Reader

/-!
# Readers that take printed pieces

`Reader.Takes` says that a reader takes exactly the tokens of some pieces and gives a part of a
statement, provided that the token after them is none with which it would go on.  A reader made of
steps takes what its steps take, one after the other (`Takes.bind`); a loop takes what its items
take (`many_takes`, `separated_takes`, `commaList_takes`).
-/

namespace Tabula

/-- The kind of the token after some place, given the pieces that stand there and the kind of the
token after them. -/
def Piece.next (ps : List Piece) (k : Option TokenKind) : Option TokenKind :=
  match ps with
  | [] => k
  | p :: _ => some p.kind

theorem Piece.next_append (ps qs : List Piece) (k : Option TokenKind) :
    next (ps ++ qs) k = next ps (next qs k) := by
  cases ps <;> rfl

/-- Pieces that begin with a token of a kind, if there are any. -/
def Piece.Begins (ps : List Piece) (kind : TokenKind) : Prop :=
  ∀ p ∈ ps.head?, p.kind = kind

theorem Piece.Begins.nil (kind : TokenKind) : Begins [] kind := by
  intro p hp
  cases hp

theorem Piece.Begins.keyword (k : Keyword) (ps : List Piece) :
    Begins (.plain k.capitals :: ps) (.keyword k) := by
  intro p hp
  rw [← Option.some.inj hp]
  exact (clear_keyword k).2

theorem Piece.Begins.next_mem {ps : List Piece} {kind : TokenKind} (h : Begins ps kind)
    {k : Option TokenKind} {kinds : List (Option TokenKind)} (hk : k ∈ kinds) :
    next ps k ∈ some kind :: kinds := by
  cases ps with
  | nil => exact List.mem_cons_of_mem _ hk
  | cons p qs =>
    rw [next, h p rfl]
    exact List.mem_cons_self

theorem Piece.Spell.of_append {ps qs : List Piece} {tokens : List Token}
    (h : Spell (ps ++ qs) tokens) :
    ∃ us vs, tokens = us ++ vs ∧ Spell ps us ∧ Spell qs vs :=
  ⟨tokens.take ps.length, tokens.drop ps.length, (List.take_append_drop _ _).symm,
    (List.forall₂_take_append tokens ps qs h.flip).flip,
    (List.forall₂_drop_append tokens ps qs h.flip).flip⟩

theorem Piece.Spell.exists_piece {ps : List Piece} {tokens : List Token} (h : Spell ps tokens)
    {t : Token} (ht : t ∈ tokens) : ∃ p ∈ ps, t.kind = p.kind := by
  induction h with
  | nil => cases ht
  | cons hfirst _ ih =>
    rcases List.mem_cons.1 ht with rfl | ht
    · exact ⟨_, List.mem_cons_self, hfirst.1⟩
    · obtain ⟨p, hp, hkind⟩ := ih ht
      exact ⟨p, List.mem_cons_of_mem _ hp, hkind⟩

namespace Reader

/-- The kind of the first token, if there is one. -/
def firstKind (tokens : List Token) : Option TokenKind :=
  tokens.head?.map (·.kind)

/-- Pieces are clear, and a reader takes their tokens off and gives `x`, if the kind of the token
after them is one that may stand there. -/
structure Takes {α : Type} (r : Reader α) (ps : List Piece) (x : α)
    (may : Option TokenKind → Prop) : Prop where
  clear : ∀ p ∈ ps, p.Clear
  takes : ∀ tokens rest, Piece.Spell ps tokens → may (firstKind rest) →
    r (tokens ++ rest) = .ok (x, rest)

/-! ## Steps -/

theorem firstKind_append {ps : List Piece} {tokens : List Token} (h : Piece.Spell ps tokens)
    (rest : List Token) : firstKind (tokens ++ rest) = Piece.next ps (firstKind rest) := by
  cases h with
  | nil => rfl
  | cons ht _ => exact congrArg some ht.1

namespace Takes

variable {α β : Type} {r : Reader α} {f : α → Reader β} {ps qs : List Piece} {p : Piece} {x : α}
  {y : β} {may may' : Option TokenKind → Prop}

theorem pure (x : α) : Takes (pure x) [] x may where
  clear := by simp
  takes := by
    intro tokens rest h _
    cases h
    rfl

/-- What two steps take, one after the other. -/
theorem bind (hr : Takes r ps x may) (hf : Takes (f x) qs y may')
    (h : ∀ k, may' k → may (Piece.next qs k)) : Takes (r >>= f) (ps ++ qs) y may' where
  clear := by
    intro p hp
    rcases List.mem_append.1 hp with hp | hp
    · exact hr.clear p hp
    · exact hf.clear p hp
  takes := by
    intro tokens rest hspell hrest
    obtain ⟨us, vs, rfl, hus, hvs⟩ := hspell.of_append
    have hfirst := hr.takes us (vs ++ rest) hus (by rw [firstKind_append hvs]; exact h _ hrest)
    rw [List.append_assoc]
    show (r (us ++ (vs ++ rest)) >>= fun found => f found.1 found.2) = _
    rw [hfirst]
    exact hf.takes vs rest hvs hrest

/-- What two steps take, where the pieces of the second begin with one of a few kinds. -/
theorem bind_next {kinds : List (Option TokenKind)} (hr : Takes r ps x may)
    (hf : Takes (f x) qs y may') (hnext : ∀ k, may' k → Piece.next qs k ∈ kinds)
    (hkinds : ∀ k ∈ kinds, may k) : Takes (r >>= f) (ps ++ qs) y may' :=
  hr.bind hf fun k hk => hkinds _ (hnext k hk)

/-- A step that takes one piece. -/
theorem cons (hr : Takes r [p] x may) (hf : Takes (f x) qs y may')
    (h : ∀ k, may' k → may (Piece.next qs k)) : Takes (r >>= f) (p :: qs) y may' :=
  hr.bind hf h

/-- A step that takes one piece whatever stands after it. -/
theorem step (hr : Takes r [p] x fun _ => True) (hf : Takes (f x) qs y may') :
    Takes (r >>= f) (p :: qs) y may' :=
  hr.bind hf fun _ _ => trivial

/-- A step that takes nothing. -/
theorem skip (hr : Takes r [] x may) (hf : Takes (f x) qs y may')
    (h : ∀ k, may' k → may (Piece.next qs k)) : Takes (r >>= f) qs y may' :=
  hr.bind hf h

/-- A step after which nothing more is taken. -/
theorem bind_nil (hr : Takes r ps x may) (hf : Takes (f x) [] y may')
    (h : ∀ k, may' k → may k) : Takes (r >>= f) ps y may' := by
  have := hr.bind hf h
  rwa [List.append_nil] at this

/-- A last step, whose result is only put to use. -/
theorem last (hr : Takes r ps x may) (hf : f x = Pure.pure y) : Takes (r >>= f) ps y may := by
  refine hr.bind_nil ?_ fun k hk => hk
  rw [hf]
  exact pure y

theorem imp (hr : Takes r ps x may) (h : ∀ k, may' k → may k) : Takes r ps x may' where
  clear := hr.clear
  takes := fun tokens rest hspell hrest => hr.takes tokens rest hspell (h _ hrest)

theorem ite_true {r' : Reader α} (h : Takes r ps x may) :
    Takes (if true = true then r else r') ps x may := h

theorem ite_false {r' : Reader α} (h : Takes r ps x may) :
    Takes (if false = true then r' else r) ps x may := h

/-- A step that takes nothing and tells something of the tokens. -/
theorem observe {γ : Type} {g : List Token → γ} {f : γ → Reader β} (v : γ)
    (hv : ∀ tokens rest, Piece.Spell ps tokens → may' (firstKind rest) → g (tokens ++ rest) = v)
    (h : Takes (f v) ps y may') :
    Takes ((fun tokens => .ok (g tokens, tokens) : Reader γ) >>= f) ps y may' where
  clear := h.clear
  takes := by
    intro tokens rest hspell hrest
    show f (g (tokens ++ rest)) (tokens ++ rest) = _
    rw [hv tokens rest hspell hrest]
    exact h.takes tokens rest hspell hrest

/-- A look at the next token. -/
theorem peek {f : Option Token → Reader β}
    (h : ∀ position, Takes (f (some ⟨p.kind, p.lexeme, position⟩)) (p :: qs) y may') :
    Takes (peek? >>= f) (p :: qs) y may' where
  clear := (h 0).clear
  takes := by
    intro tokens rest hspell hrest
    cases hspell with
    | cons ht hts =>
      rename_i t ts
      obtain ⟨kind, lexeme, position⟩ := t
      obtain ⟨rfl, rfl⟩ : kind = p.kind ∧ lexeme = p.lexeme := ht
      exact (h position).takes _ rest (.cons ⟨rfl, rfl⟩ hts) hrest

/-- A look at the kind of the next piece. -/
theorem look {f : Option TokenKind → Reader β} (h : Takes (f (some p.kind)) (p :: qs) y may') :
    Takes (peekKind? >>= f) (p :: qs) y may' :=
  observe _ (fun _ rest hspell _ => firstKind_append hspell rest) h

/-- A look at the kind of the piece after the next. -/
theorem look_second {q : Piece} {f : Option TokenKind → Reader β}
    (h : Takes (f (some q.kind)) (p :: q :: qs) y may') :
    Takes (peekSecond? >>= f) (p :: q :: qs) y may' := by
  refine observe _ (fun tokens rest hspell _ => ?_) h
  cases hspell with
  | cons _ hspell =>
    cases hspell with
    | cons ht _ => exact congrArg some ht.1

/-- There are pieces, so the tokens are not at their end. -/
theorem before_end {f : Bool → Reader β} (h : Takes (f false) (p :: qs) y may') :
    Takes (atEnd >>= f) (p :: qs) y may' := by
  refine observe _ (fun tokens rest hspell _ => ?_) h
  cases hspell with
  | cons _ _ => rfl

/-- There is no token left. -/
theorem at_end {f : Bool → Reader β} (h : Takes (f true) [] y (· = none)) :
    Takes (atEnd >>= f) [] y (· = none) := by
  refine observe _ (fun tokens rest hspell hrest => ?_) h
  obtain rfl := List.forall₂_nil_left_iff.1 hspell
  rw [List.nil_append]
  exact List.isEmpty_iff.2 (List.head?_eq_none_iff.1 (Option.map_eq_none_iff.1 hrest))

/-- A step that takes nothing and tells what does not matter. -/
theorem ignore {γ : Type} {g : List Token → γ} {f : γ → Reader β}
    (h : ∀ v, Takes (f v) ps y may') :
    Takes ((fun tokens => .ok (g tokens, tokens) : Reader γ) >>= f) ps y may' where
  clear := (h (g [])).clear
  takes := fun tokens rest hspell hrest => (h _).takes tokens rest hspell hrest

/-- A look at the kind of the token after the last piece. -/
theorem look_after {f : Option TokenKind → Reader β}
    (h : ∀ k, may' k → Takes (f k) [] y (· = k)) : Takes (peekKind? >>= f) [] y may' where
  clear := by simp
  takes := by
    intro tokens rest hspell hrest
    obtain rfl := List.forall₂_nil_left_iff.1 hspell
    exact (h _ hrest).takes [] rest .nil rfl

end Takes

/-! ## Single tokens -/

theorem accept_takes {p : Piece} {kind : TokenKind} (h : p.Clear ∧ p.kind = kind) :
    Takes (accept kind) [p] true fun _ => True where
  clear := by simpa using h.1
  takes := by
    intro tokens rest hspell _
    obtain ⟨t, ts, ht, hts, rfl⟩ := List.forall₂_cons_left_iff.1 hspell
    obtain rfl := List.forall₂_nil_left_iff.1 hts
    rw [List.cons_append, accept, if_pos (ht.1.trans h.2)]
    rfl

theorem accept_skips (kind : TokenKind) : Takes (accept kind) [] false (· ≠ some kind) where
  clear := by simp
  takes := by
    intro tokens rest hspell hrest
    obtain rfl := List.forall₂_nil_left_iff.1 hspell
    rw [List.nil_append]
    cases rest with
    | nil => rfl
    | cons t ts =>
      rw [accept, if_neg]
      intro heq
      exact hrest (congrArg some heq)

theorem expect_takes {p : Piece} {kind : TokenKind} (h : p.Clear ∧ p.kind = kind) :
    Takes (expect kind) [p] () fun _ => True := by
  unfold expect
  exact (accept_takes h).step (.pure _)

theorem advance_takes {p : Piece} (h : p.Clear) : Takes advance [p] () fun _ => True where
  clear := by simpa using h
  takes := by
    intro tokens rest hspell _
    obtain ⟨t, ts, ht, hts, rfl⟩ := List.forall₂_cons_left_iff.1 hspell
    obtain rfl := List.forall₂_nil_left_iff.1 hts
    rfl

theorem name_takes (s : String) : Takes name [.name s] s fun _ => True where
  clear := by simpa using Piece.clear_name s
  takes := by
    intro tokens rest hspell _
    obtain ⟨t, ts, ⟨hkind, hlexeme⟩, hts, rfl⟩ := List.forall₂_cons_left_iff.1 hspell
    obtain rfl := List.forall₂_nil_left_iff.1 hts
    have hname : isName t rest = true := by
      unfold isName
      rw [hkind]
      rfl
    rw [List.singleton_append, name, if_pos hname, hlexeme]
    rfl

/-- A literal that is read off a token is read off a piece of its kind and lexeme. -/
theorem literalBy_takes {read? : Token → Option Literal} {p : Piece} {l : Literal} (hp : p.Clear)
    (h : ∀ position, read? ⟨p.kind, p.lexeme, position⟩ = some l) :
    Takes (literalBy read?) [p] l fun _ => True := by
  unfold literalBy
  refine .peek fun position => ?_
  rw [Option.bind_some, h position]
  exact (advance_takes hp).last rfl

/-- All pieces of one kind are passed over together. -/
theorem skipAll_takes {ps : List Piece} {kind : TokenKind}
    (h : ∀ p ∈ ps, p.Clear ∧ p.kind = kind) :
    Takes (skipAll kind) ps ps.length (· ≠ some kind) where
  clear := fun p hp => (h p hp).1
  takes := by
    intro tokens rest hspell hrest
    have hkinds : ∀ t ∈ tokens, (t.kind == kind) = true := by
      intro t ht
      obtain ⟨p, hp, hkind⟩ := hspell.exists_piece ht
      rw [hkind, (h p hp).2]
      exact beq_self_eq_true kind
    have hstop : rest.takeWhile (·.kind == kind) = [] := by
      cases rest with
      | nil => rfl
      | cons t ts =>
        refine List.takeWhile_cons_of_neg fun heq => hrest ?_
        exact congrArg some (beq_iff_eq.1 heq)
    have hrun : (tokens ++ rest).takeWhile (·.kind == kind) = tokens := by
      rw [List.takeWhile_append_of_pos hkinds, hstop, List.append_nil]
    unfold skipAll
    dsimp only
    rw [hrun, List.drop_left, List.Forall₂.length_eq hspell]

theorem skipAll_skips (kind : TokenKind) : Takes (skipAll kind) [] 0 (· ≠ some kind) :=
  skipAll_takes (by simp)

/-- All pieces before one of a kind, or before the end, are passed over. -/
theorem skipUntil_takes {ps : List Piece} {kind : TokenKind}
    (h : ∀ p ∈ ps, p.Clear ∧ p.kind ≠ kind) :
    Takes (skipUntil kind) ps () fun k => k = none ∨ k = some kind where
  clear := fun p hp => (h p hp).1
  takes := by
    intro tokens rest hspell hrest
    have hkinds : ∀ t ∈ tokens, (t.kind != kind) = true := by
      intro t ht
      obtain ⟨p, hp, hkind⟩ := hspell.exists_piece ht
      rw [hkind]
      exact bne_iff_ne.2 (h p hp).2
    have hstop : rest.dropWhile (·.kind != kind) = rest := by
      cases rest with
      | nil => rfl
      | cons t ts =>
        refine List.dropWhile_cons_of_neg ?_
        rcases hrest with hrest | hrest
        · cases hrest
        · have hkind : t.kind = kind := Option.some.inj hrest
          simp [hkind]
    unfold skipUntil
    rw [List.dropWhile_append_of_pos hkinds, hstop]

/-- A look at a keyword decides. -/
theorem look_word {α : Type} (k : Keyword) {qs : List Piece} {f : Option TokenKind → Reader α}
    {x : α} {may : Option TokenKind → Prop}
    (h : Takes (f (some (.keyword k))) (.plain k.capitals :: qs) x may) :
    Takes (peekKind? >>= f) (.plain k.capitals :: qs) x may := by
  refine .look ?_
  rw [(Piece.clear_keyword k).2]
  exact h

/-- A look at a keyword decides, and the keyword is passed over. -/
theorem look_advance {α : Type} (k : Keyword) {qs : List Piece} {f : Option TokenKind → Reader α}
    {r : Reader α} {x : α} {may : Option TokenKind → Prop}
    (hf : f (some (.keyword k)) = advance >>= fun _ => r) (h : Takes r qs x may) :
    Takes (peekKind? >>= f) (.plain k.capitals :: qs) x may := by
  refine look_word k ?_
  rw [hf]
  exact (advance_takes (Piece.clear_keyword k).1).step h

/-! ## Repetition -/

/-- An item that takes tokens is followed by what the loop reads after it. -/
theorem many_step {α : Type} {item? : Reader (Option α)} {tokens middle rest : List Token} {x : α}
    {xs : List α} (hitem : item? tokens = .ok (some x, middle))
    (hshorter : middle.length < tokens.length) (hmany : many item? middle = .ok (xs, rest)) :
    many item? tokens = .ok (x :: xs, rest) := by
  rw [many, hitem]
  dsimp only
  rw [if_pos hshorter, hmany]

/-- A loop takes its items one after the other, and stops where there is none.  An item after the
first is what follows another one, so it has to begin with something that may follow. -/
theorem many_takes {α : Type} {item? : Reader (Option α)} {may mayItem : Option TokenKind → Prop}
    (hend : Takes item? [] none may) (hmay : ∀ k, may k → mayItem k)
    (items : List (List Piece × α))
    (hitems : ∀ i ∈ items, i.1 ≠ [] ∧ Takes item? i.1 (some i.2) mayItem)
    (hnext : ∀ i ∈ items.tail, ∀ k, mayItem (Piece.next i.1 k)) :
    Takes (many item?) (items.flatMap (·.1)) (items.map (·.2)) may := by
  induction items with
  | nil =>
    refine ⟨by simp, fun tokens rest hspell hrest => ?_⟩
    obtain rfl := List.forall₂_nil_left_iff.1 hspell
    rw [many, hend.takes [] rest .nil hrest]
    rfl
  | cons i others ih =>
    obtain ⟨hne, hitem⟩ := hitems i List.mem_cons_self
    have ih := ih (fun j hj => hitems j (List.mem_cons_of_mem _ hj)) fun j hj =>
      hnext j (List.mem_of_mem_tail hj)
    have hfollow : ∀ k, may k → mayItem (Piece.next (others.flatMap (·.1)) k) := by
      intro k hk
      cases others with
      | nil => exact hmay k hk
      | cons j _ =>
        obtain ⟨q, qs, hq⟩ := List.exists_cons_of_ne_nil (hitems j (by simp)).1
        have hbegin := hnext j List.mem_cons_self k
        rw [hq] at hbegin
        rw [List.flatMap_cons, hq]
        exact hbegin
    refine ⟨?_, fun tokens rest hspell hrest => ?_⟩
    · intro p hp
      rcases List.mem_append.1 hp with hp | hp
      · exact hitem.clear p hp
      · exact ih.clear p hp
    · rw [List.flatMap_cons] at hspell
      obtain ⟨us, vs, rfl, hus, hvs⟩ := hspell.of_append
      have hlength := List.Forall₂.length_eq hus
      have hpos := List.length_pos_iff.2 hne
      have hmiddle := hitem.takes us (vs ++ rest) hus (by
        rw [firstKind_append hvs]
        exact hfollow _ hrest)
      rw [List.append_assoc]
      refine many_step hmiddle ?_ (ih.takes vs rest hvs hrest)
      simp only [List.length_append]
      omega

/-- A loop takes items that are each written in one way. -/
theorem many_each {α : Type} {item? : Reader (Option α)} {may mayItem : Option TokenKind → Prop}
    {pieces : α → List Piece} (hend : Takes item? [] none may) (hmay : ∀ k, may k → mayItem k)
    (xs : List α) (hitems : ∀ x ∈ xs, pieces x ≠ [] ∧ Takes item? (pieces x) (some x) mayItem)
    (hnext : ∀ x ∈ xs, ∀ k, mayItem (Piece.next (pieces x) k)) :
    Takes (many item?) (xs.flatMap pieces) xs may := by
  have := many_takes hend hmay (xs.map fun x => (pieces x, x))
    (by
      intro i hi
      obtain ⟨x, hx, rfl⟩ := List.mem_map.1 hi
      exact hitems x hx)
    (by
      intro i hi
      obtain ⟨x, hx, rfl⟩ := List.mem_map.1 (List.mem_of_mem_tail hi)
      exact hnext x hx)
  have hsame : (xs.map fun x => (pieces x, x)).map (·.2) = xs := by
    simp [Function.comp_def]
  rwa [List.flatMap_map, hsame] at this

theorem optional_takes {α : Type} {present : Reader Bool} {item : Reader α} {p : Piece}
    {ps : List Piece} {x : α} {may : Option TokenKind → Prop}
    (hp : Takes present [p] true fun _ => True) (hi : Takes item ps x may) :
    Takes (optional present item) (p :: ps) (some x) may := by
  unfold optional
  exact hp.step (.ite_true (hi.last rfl))

theorem optional_skips {α : Type} {present : Reader Bool} {item : Reader α}
    {may : Option TokenKind → Prop} (hp : Takes present [] false may) :
    Takes (optional present item) [] none may := by
  unfold optional
  exact hp.skip (.ite_false (.pure none)) fun _ hk => hk

/-- Items with a piece before each but the first. -/
theorem separated_takes {α : Type} {more : Reader Bool} {item : Reader α} {p : Piece}
    {pieces : α → List Piece} {may mayItem : Option TokenKind → Prop}
    (hmore : Takes more [p] true fun _ => True) (hend : Takes more [] false may)
    (hmay : ∀ k, may k → mayItem k) (hp : mayItem (some p.kind)) (first : α) (others : List α)
    (hitems : ∀ x ∈ first :: others, Takes item (pieces x) x mayItem) :
    Takes (separated more item) (pieces first ++ others.flatMap fun x => p :: pieces x)
      (first :: others) may := by
  have hothers := many_each (optional_skips hend) hmay others
    (fun x hx => ⟨List.cons_ne_nil p (pieces x),
      optional_takes hmore (hitems x (List.mem_cons_of_mem _ hx))⟩)
    fun _ _ _ => hp
  unfold separated
  refine (hitems first List.mem_cons_self).bind (hothers.last rfl) fun k hk => ?_
  cases others with
  | nil => exact hmay k hk
  | cons _ _ => exact hp

theorem commaList_pieces {α : Type} (pieces : α → List Piece) (first : α) (others : List α) :
    Piece.commaList ((first :: others).map pieces) =
      pieces first ++ others.flatMap fun x => .plain "," :: pieces x := by
  induction others generalizing first with
  | nil => simp [Piece.commaList]
  | cons second rest ih =>
    rw [List.map_cons, List.flatMap_cons, List.cons_append, ← ih second]
    rfl

theorem clear_comma : (Piece.plain ",").Clear ∧ (Piece.plain ",").kind = .comma :=
  Piece.clear_mark (by decide)

theorem clear_semicolon : (Piece.plain ";").Clear ∧ (Piece.plain ";").kind = .semicolon :=
  Piece.clear_mark (by decide)

theorem clear_lparen : (Piece.plain "(").Clear ∧ (Piece.plain "(").kind = .lparen :=
  Piece.clear_mark (by decide)

theorem clear_rparen : (Piece.plain ")").Clear ∧ (Piece.plain ")").kind = .rparen :=
  Piece.clear_mark (by decide)

/-- Items with commas between them. -/
theorem commaList_takes {α : Type} {item : Reader α} {pieces : α → List Piece}
    {mayItem : Option TokenKind → Prop} (hcomma : mayItem (some .comma)) {xs : List α}
    (hne : xs ≠ []) (hitems : ∀ x ∈ xs, Takes item (pieces x) x mayItem) :
    Takes (commaList item) (Piece.commaList (xs.map pieces)) xs
      fun k => mayItem k ∧ k ≠ some .comma := by
  obtain ⟨first, others, rfl⟩ := List.exists_cons_of_ne_nil hne
  rw [commaList_pieces]
  refine separated_takes (accept_takes clear_comma) ((accept_skips .comma).imp fun k hk => hk.2)
    (fun k hk => hk.1) ?_ first others hitems
  rwa [clear_comma.2]

/-- Something between parentheses. -/
theorem parenthesised_takes {α : Type} {inner : Reader α} {ps : List Piece} {x : α}
    {mayInner : Option TokenKind → Prop} (hparen : mayInner (some .rparen))
    (h : Takes inner ps x mayInner) :
    Takes (parenthesised inner) (Piece.parenthesised ps) x fun _ => True := by
  unfold parenthesised Piece.parenthesised
  refine (expect_takes clear_lparen).step (h.bind ?_ fun _ _ => ?_)
  · exact (expect_takes clear_rparen).step (.pure x)
  · rw [← clear_rparen.2] at hparen
    exact hparen

end Reader

end Tabula
