import Tabula.Proofs.Lookahead
import Tabula.Statement.Reader

/-!
# Reading does not look beyond a semicolon

What a reader takes off tokens it takes off the same tokens at other positions, with a semicolon and
anything else after them.  Where it is stuck on tokens, it is stuck on them there too.

* `Reader.Carried`, `Reader.Carries`: that a reader does so on some tokens, and on all.
* `Reader.statement_carries`: the readers of all statements do, GRANT included.
* `Statement.ofTokens_append`, `Statement.ofTokens_divided`: statements are read up to a semicolon as
  if nothing came after it, and after it as if nothing came before.
* `Statement.ofTokens_moved`: positions make no difference to the statements or to the fault.
-/

namespace Tabula

/-! ## Algorithm -/

/-- The token at another position. -/
def Token.moved (f : Nat → Nat) (t : Token) : Token :=
  { t with position := f t.position }

/-- Where reading came to a stop, with the tokens at other positions and others after them. -/
def Stuck.moved (f : Nat → Nat) (tail : List Token) (s : Stuck) : Stuck :=
  { s with rest := s.rest.map (Token.moved f) ++ tail }

/-- Tokens that do not go on with a statement. -/
def Token.Ends (tail : List Token) : Prop :=
  ∀ t ∈ tail.head?, t.kind = .semicolon

namespace Reader

variable {α β : Type}

/-- What a reader takes off these tokens it takes off them at other positions and before tokens that
do not go on with a statement, and where it is stuck on them it is stuck on them there too. -/
structure Carried (r : Reader α) (tokens : List Token) : Prop where
  taken : ∀ x rest, r tokens = .ok (x, rest) → rest <:+ tokens ∧
    ∀ f tail, Token.Ends tail →
      r (tokens.map (Token.moved f) ++ tail) = .ok (x, rest.map (Token.moved f) ++ tail)
  stuck : ∀ s, r tokens = .error s → ∀ f tail, Token.Ends tail →
    r (tokens.map (Token.moved f) ++ tail) = .error (s.moved f tail)

/-- A reader that does so with all tokens. -/
def Carries (r : Reader α) : Prop :=
  ∀ tokens, Carried r tokens

/-! ## Steps -/

/-- A reader that succeeds hands over to the next. -/
theorem bind_of_ok {r : Reader α} {g : α → Reader β} {tokens rest : List Token} {x : α}
    (h : r tokens = .ok (x, rest)) : (r >>= g) tokens = g x rest := by
  show (r tokens >>= fun p => g p.1 p.2) = _
  rw [h]
  rfl

/-- A reader that is stuck hands over to none. -/
theorem bind_of_error {r : Reader α} {g : α → Reader β} {tokens : List Token} {s : Stuck}
    (h : r tokens = .error s) : (r >>= g) tokens = .error s := by
  show (r tokens >>= fun p => g p.1 p.2) = _
  rw [h]
  rfl

section Steps

variable {r : Reader α}

theorem Carried.bind {tokens : List Token} {g : α → Reader β} (hr : Carried r tokens)
    (hg : ∀ x, Carries (g x)) : Carried (r >>= g) tokens := by
  refine ⟨fun y rest h => ?_, fun s h f tail htail => ?_⟩
  · obtain ⟨⟨x, middle⟩, hx, hy⟩ := bind_eq_ok.1 h
    obtain ⟨hmiddle, hcarried⟩ := hr.taken x middle hx
    obtain ⟨hrest, hlater⟩ := (hg x middle).taken y rest hy
    refine ⟨hrest.trans hmiddle, fun f tail htail => ?_⟩
    exact bind_eq_ok.2 ⟨_, hcarried f tail htail, hlater f tail htail⟩
  · cases hx : r tokens with
    | error s' =>
      obtain rfl : s' = s := Except.error.inj ((bind_of_error hx).symm.trans h)
      exact bind_of_error (hr.stuck s' hx f tail htail)
    | ok p =>
      rw [bind_of_ok hx] at h
      rw [bind_of_ok ((hr.taken p.1 p.2 hx).2 f tail htail)]
      exact (hg p.1 p.2).stuck s h f tail htail

theorem Carries.bind {g : α → Reader β} (hr : Carries r) (hg : ∀ x, Carries (g x)) :
    Carries (r >>= g) :=
  fun tokens => (hr tokens).bind hg

theorem Carries.pure (x : α) : Carries (pure x) := by
  refine fun tokens => ⟨fun y rest h => ?_, fun s h => ?_⟩
  · obtain ⟨rfl, rfl⟩ := Prod.mk.inj (Except.ok.inj h)
    exact ⟨List.suffix_refl _, fun f tail _ => rfl⟩
  · cases h

theorem Carries.stop (message : String) : Carries (stop message : Reader α) := by
  refine fun tokens => ⟨fun x rest h => ?_, fun s h f tail _ => ?_⟩
  · cases h
  · obtain rfl := Except.error.inj h
    rfl

theorem Carries.ite {c : Prop} [Decidable c] {r' : Reader α} (hr : Carries r)
    (hr' : Carries r') : Carries (if c then r else r') := by
  split
  · exact hr
  · exact hr'

/-- Where a token comes next, it is passed over. -/
theorem Carries.advance (hr : Carries r) (t : Token) (tokens : List Token) :
    Carried (Reader.advance >>= fun _ => r) (t :: tokens) := by
  refine ⟨fun x rest h => ?_, fun s h => (hr tokens).stuck s h⟩
  obtain ⟨hrest, hcarried⟩ := (hr tokens).taken x rest h
  exact ⟨hrest.trans (List.suffix_cons t tokens), fun f tail htail => hcarried f tail htail⟩

/-- A look at what comes next carries, if what follows carries on every token and takes a semicolon
for the end. -/
theorem Carries.look {look : Reader β} {g : β → Reader α} {e : β} (hnil : look [] = .ok (e, []))
    (hcons : ∀ t tokens, Carried (look >>= g) (t :: tokens)) (hnone : Carries (g e))
    (hend : ∀ t tail, t.kind = .semicolon → (look >>= g) (t :: tail) = g e (t :: tail)) :
    Carries (look >>= g) := by
  intro tokens
  cases tokens with
  | cons t tokens => exact hcons t tokens
  | nil =>
    have hsame : ∀ tail, Token.Ends tail → (look >>= g) tail = g e tail := by
      intro tail htail
      cases tail with
      | nil => exact bind_of_ok hnil
      | cons t tail => exact hend t tail (htail t rfl)
    refine ⟨fun x rest h => ?_, fun s h f tail htail => ?_⟩
    · rw [bind_of_ok hnil] at h
      obtain ⟨hrest, hcarried⟩ := (hnone []).taken x rest h
      refine ⟨hrest, fun f tail htail => ?_⟩
      rw [List.map_nil, List.nil_append, hsame tail htail]
      exact hcarried f tail htail
    · rw [bind_of_ok hnil] at h
      rw [List.map_nil, List.nil_append, hsame tail htail]
      exact (hnone []).stuck s h f tail htail

/-- A look at the next kind, where a semicolon is as good as the end. -/
theorem Carries.peekKind {g : Option TokenKind → Reader α}
    (hsome : ∀ t tokens, Carried (g (some t.kind)) (t :: tokens)) (hnone : Carries (g none))
    (hend : g (some .semicolon) = g none) : Carries (peekKind? >>= g) := by
  refine .look (e := none) rfl (fun t tokens => ?_) hnone fun t tail ht => ?_
  · exact ⟨(hsome t tokens).taken, (hsome t tokens).stuck⟩
  · rw [← hend, ← ht]
    rfl

/-- A look at the next token, of which only kind and lexeme count. -/
theorem Carries.peek {g : Option Token → Reader α}
    (hsome : ∀ t tokens, Carried (g (some t)) (t :: tokens)) (hnone : Carries (g none))
    (hend : ∀ t : Token, t.kind = .semicolon → g (some t) = g none)
    (hmoved : ∀ f t, g (some (Token.moved f t)) = g (some t)) : Carries (peek? >>= g) := by
  have hsame : ∀ f t others, (peek? >>= g) (t.moved f :: others) = g (some t) (t.moved f :: others) :=
    fun f t others => by
      rw [← hmoved f t]
      rfl
  refine .look (e := none) rfl (fun t tokens => ⟨fun x rest h => ?_,
      fun s h f tail htail => ?_⟩) hnone fun t tail ht => ?_
  · obtain ⟨hrest, hcarried⟩ := (hsome t tokens).taken x rest h
    exact ⟨hrest, fun f tail htail => (hsame f t _).trans (hcarried f tail htail)⟩
  · exact (hsame f t _).trans ((hsome t tokens).stuck s h f tail htail)
  · rw [← hend t ht]
    rfl

/-- A look at the next two kinds. -/
theorem Carries.peekTwo {g : Option TokenKind → Option TokenKind → Reader α}
    (hsome : ∀ t second tokens, Carried (g (some t.kind) second) (t :: tokens))
    (hnone : Carries (g none none)) (hfirst : ∀ second, g (some .semicolon) second = g none none)
    (hsecond : ∀ first, g first (some .semicolon) = g first none) :
    Carries (peekKind? >>= fun first => peekSecond? >>= g first) := by
  intro tokens
  cases tokens with
  | nil =>
    have hsame : ∀ tail, Token.Ends tail →
        (peekKind? >>= fun first => peekSecond? >>= g first) tail = g none none tail := by
      intro tail htail
      cases tail with
      | nil => rfl
      | cons t tail =>
        rw [← hfirst (tail.head?.map (·.kind)), ← htail t rfl, List.head?_eq_getElem?]
        rfl
    refine ⟨fun x rest h => ?_, fun s h f tail htail => ?_⟩
    · obtain ⟨hrest, hcarried⟩ := (hnone []).taken x rest h
      refine ⟨hrest, fun f tail htail => ?_⟩
      rw [List.map_nil, List.nil_append, hsame tail htail]
      exact hcarried f tail htail
    · rw [List.map_nil, List.nil_append, hsame tail htail]
      exact (hnone []).stuck s h f tail htail
  | cons t tokens =>
    cases tokens with
    | nil =>
      have hsame : ∀ f tail, Token.Ends tail →
          (peekKind? >>= fun first => peekSecond? >>= g first)
            ([t].map (Token.moved f) ++ tail) =
              g (some t.kind) none ([t].map (Token.moved f) ++ tail) := by
        intro f tail htail
        cases tail with
        | nil => rfl
        | cons t' tail =>
          rw [← hsecond, ← htail t' rfl]
          rfl
      refine ⟨fun x rest h => ?_, fun s h f tail htail => ?_⟩
      · obtain ⟨hrest, hcarried⟩ := (hsome t none []).taken x rest h
        refine ⟨hrest, fun f tail htail => ?_⟩
        rw [hsame f tail htail]
        exact hcarried f tail htail
      · rw [hsame f tail htail]
        exact (hsome t none []).stuck s h f tail htail
    | cons t' tokens =>
      exact ⟨(hsome t (some t'.kind) (t' :: tokens)).taken,
        (hsome t (some t'.kind) (t' :: tokens)).stuck⟩

end Steps

/-! ## Single tokens -/

/-- Only semicolons are accepted after a statement. -/
theorem accept_carries {kind : TokenKind} (hkind : kind ≠ .semicolon) : Carries (accept kind) := by
  intro tokens
  cases tokens with
  | nil =>
    refine ⟨fun b rest h => ?_, fun s h => by cases h⟩
    obtain ⟨rfl, rfl⟩ := Prod.mk.inj (Except.ok.inj h)
    refine ⟨List.suffix_refl _, fun f tail htail => ?_⟩
    cases tail with
    | nil => rfl
    | cons t tail =>
      have ht : t.kind ≠ kind := fun heq => hkind (by rw [← heq, htail t rfl])
      rw [List.map_nil, List.nil_append, accept, if_neg ht]
  | cons t tokens =>
    by_cases ht : t.kind = kind
    · have hhere : ∀ others, accept kind (t :: others) = .ok (true, others) := fun others => by
        rw [accept, if_pos ht]
      refine ⟨fun b rest h => ?_, fun s h => by rw [hhere] at h; cases h⟩
      rw [hhere] at h
      obtain ⟨rfl, rfl⟩ := Prod.mk.inj (Except.ok.inj h)
      refine ⟨List.suffix_cons _ _, fun f tail _ => ?_⟩
      rw [List.map_cons, List.cons_append, accept, if_pos (by exact ht)]
    · have hhere : accept kind (t :: tokens) = .ok (false, t :: tokens) := by
        rw [accept, if_neg ht]
      refine ⟨fun b rest h => ?_, fun s h => by rw [hhere] at h; cases h⟩
      rw [hhere] at h
      obtain ⟨rfl, rfl⟩ := Prod.mk.inj (Except.ok.inj h)
      refine ⟨List.suffix_refl _, fun f tail _ => ?_⟩
      rw [List.map_cons, List.cons_append, accept, if_neg (by exact ht)]

theorem acceptWord_carries (k : Keyword) : Carries (acceptWord k) :=
  accept_carries (by simp)

theorem expect_carries {kind : TokenKind} (hkind : kind ≠ .semicolon) : Carries (expect kind) := by
  unfold expect
  exact (accept_carries hkind).bind fun _ => .ite (.stop _) (.pure _)

theorem expectWord_carries (k : Keyword) : Carries (expectWord k) :=
  expect_carries (by simp)

/-- Everything up to a semicolon is passed over, and nothing after it. -/
theorem skipUntil_carries : Carries (skipUntil .semicolon) := by
  refine fun tokens => ⟨fun x rest h => ?_, fun s h => by cases h⟩
  obtain ⟨rfl, rfl⟩ := Prod.mk.inj (Except.ok.inj h)
  refine ⟨List.dropWhile_suffix _, fun f tail htail => ?_⟩
  have hhead : ∀ t ∈ tail.head?, (t.kind != .semicolon) = false := by
    intro t ht
    simp [htail t ht]
  rw [skipUntil, dropWhile_append_of_head hhead, List.dropWhile_map]
  rfl

theorem skipAll_carries {kind : TokenKind} (hkind : kind ≠ .semicolon) :
    Carries (skipAll kind) := by
  refine fun tokens => ⟨fun n rest h => ?_, fun s h => by cases h⟩
  obtain ⟨rfl, rfl⟩ := Prod.mk.inj (Except.ok.inj h)
  refine ⟨List.drop_suffix _ _, fun f tail htail => ?_⟩
  have hhead : ∀ t ∈ tail.head?, (t.kind == kind) = false := by
    intro t ht
    simp [htail t ht, Ne.symm hkind]
  have hmoved : ((fun t : Token => t.kind == kind) ∘ Token.moved f) =
      fun t : Token => t.kind == kind := rfl
  have hle : (tokens.takeWhile (·.kind == kind)).length ≤ tokens.length :=
    (List.takeWhile_prefix _).length_le
  simp only [skipAll, takeWhile_append_of_head hhead, List.takeWhile_map, hmoved, List.length_map]
  rw [List.drop_append_of_le_length (by rw [List.length_map]; exact hle), List.map_drop]

/-! ## Repetition -/

theorem many_taken {item? : Reader (Option α)} (h : Carries item?) {tokens rest : List Token}
    {xs : List α} : many item? tokens = .ok (xs, rest) → rest <:+ tokens ∧
      ∀ f tail, Token.Ends tail → many item? (tokens.map (Token.moved f) ++ tail) =
        .ok (xs, rest.map (Token.moved f) ++ tail) := by
  fun_induction many item? tokens generalizing xs rest with
  | case1 tokens e he => intro heq; cases heq
  | case2 tokens middle hnone =>
    intro heq
    obtain ⟨rfl, rfl⟩ := Prod.mk.inj (Except.ok.inj heq)
    obtain ⟨hmiddle, hcarried⟩ := (h tokens).taken none middle hnone
    refine ⟨hmiddle, fun f tail htail => ?_⟩
    rw [many, hcarried f tail htail]
  | case3 tokens x middle hsome hlt e he ih => intro heq; cases heq
  | case4 tokens x middle hsome hlt ys last hmany ih =>
    intro heq
    obtain ⟨rfl, rfl⟩ := Prod.mk.inj (Except.ok.inj heq)
    obtain ⟨hmiddle, hcarried⟩ := (h tokens).taken (some x) middle hsome
    obtain ⟨hlast, hlater⟩ := ih hmany
    refine ⟨hlast.trans hmiddle, fun f tail htail => ?_⟩
    have hlen : (middle.map (Token.moved f) ++ tail).length <
        (tokens.map (Token.moved f) ++ tail).length := by
      simp only [List.length_append, List.length_map]
      omega
    rw [many, hcarried f tail htail]
    dsimp only
    rw [if_pos hlen, hlater f tail htail]
  | case5 tokens x middle hsome hlt =>
    intro heq
    obtain ⟨rfl, rfl⟩ := Prod.mk.inj (Except.ok.inj heq)
    obtain ⟨hmiddle, hcarried⟩ := (h tokens).taken (some x) middle hsome
    refine ⟨hmiddle, fun f tail htail => ?_⟩
    have hlen : ¬ (middle.map (Token.moved f) ++ tail).length <
        (tokens.map (Token.moved f) ++ tail).length := by
      simp only [List.length_append, List.length_map]
      omega
    rw [many, hcarried f tail htail]
    dsimp only
    rw [if_neg hlen]

/-- Repetition is stuck where an item is, wherever the tokens stand. -/
theorem many_stuck {item? : Reader (Option α)}
    (htaken : ∀ {tokens rest x}, item? tokens = .ok (some x, rest) → ∀ f tail, Token.Ends tail →
      item? (tokens.map (Token.moved f) ++ tail) = .ok (some x, rest.map (Token.moved f) ++ tail))
    (hstuck : ∀ {tokens s}, item? tokens = .error s → ∀ f tail, Token.Ends tail →
      item? (tokens.map (Token.moved f) ++ tail) = .error (s.moved f tail))
    {tokens : List Token} {s : Stuck} : many item? tokens = .error s → ∀ f tail, Token.Ends tail →
      many item? (tokens.map (Token.moved f) ++ tail) = .error (s.moved f tail) := by
  fun_induction many item? tokens with
  | case1 tokens e he =>
    intro heq f tail htail
    obtain rfl := Except.error.inj heq
    rw [many, hstuck he f tail htail]
  | case2 tokens middle hnone => intro heq; cases heq
  | case3 tokens x middle hsome hlt e he ih =>
    intro heq f tail htail
    obtain rfl := Except.error.inj heq
    have hlen : (middle.map (Token.moved f) ++ tail).length <
        (tokens.map (Token.moved f) ++ tail).length := by
      simp only [List.length_append, List.length_map]
      omega
    rw [many, htaken hsome f tail htail]
    dsimp only
    rw [if_pos hlen, ih he f tail htail]
  | case4 tokens x middle hsome hlt ys last hmany ih => intro heq; cases heq
  | case5 tokens x middle hsome hlt => intro heq; cases heq

theorem many_carries {item? : Reader (Option α)} (h : Carries item?) : Carries (many item?) :=
  fun _ => ⟨fun _ _ => many_taken h,
    fun _ => many_stuck (fun hitem => ((h _).taken _ _ hitem).2) fun hitem => (h _).stuck _ hitem⟩

theorem optional_carries {present : Reader Bool} {item : Reader α} (hp : Carries present)
    (hi : Carries item) : Carries (optional present item) := by
  unfold optional
  exact hp.bind fun _ => .ite (hi.bind fun _ => .pure _) (.pure _)

theorem separated_carries {more : Reader Bool} {item : Reader α} (hm : Carries more)
    (hi : Carries item) : Carries (separated more item) := by
  unfold separated
  exact hi.bind fun _ => (many_carries (optional_carries hm hi)).bind fun _ => .pure _

theorem commaList_carries {item : Reader α} (hi : Carries item) : Carries (commaList item) :=
  separated_carries (accept_carries (by simp)) hi

theorem parenthesised_carries {inner : Reader α} (hi : Carries inner) :
    Carries (parenthesised inner) := by
  unfold parenthesised
  refine (expect_carries (by simp)).bind fun _ => hi.bind fun _ => ?_
  exact (expect_carries (by simp)).bind fun _ => .pure _

/-! ## Names and literals -/

/-- Whether a token is a name is seen at the token after it, which a semicolon may be. -/
theorem isName_carried (t : Token) (tokens tail : List Token) (f : Nat → Nat)
    (htail : Token.Ends tail) :
    isName (t.moved f) (tokens.map (Token.moved f) ++ tail) = isName t tokens := by
  have hhead : ((tokens.map (Token.moved f) ++ tail).head?.map (·.kind) != some .lparen) =
      (tokens.head?.map (·.kind) != some .lparen) := by
    cases tokens with
    | cons t' tokens => rfl
    | nil =>
      cases tail with
      | nil => rfl
      | cons t' tail =>
        simp only [List.map_nil, List.nil_append, List.head?_cons, Option.map_some, htail t' rfl]
        rfl
  unfold isName
  rw [hhead]
  rfl

theorem name_carries : Carries name := by
  intro tokens
  cases tokens with
  | nil =>
    refine ⟨fun x rest h => (by cases h), fun s h f tail htail => ?_⟩
    obtain rfl := Except.error.inj h
    cases tail with
    | nil => rfl
    | cons t tail =>
      have hname : isName t tail = false := by
        rw [isName, htail t rfl]
      rw [List.map_nil, List.nil_append, name, hname, if_neg Bool.false_ne_true]
      rfl
  | cons t tokens =>
    refine ⟨fun x rest h => ?_, fun s h f tail htail => ?_⟩
    · rw [name] at h
      split at h
      · next ht =>
        obtain ⟨rfl, rfl⟩ := Prod.mk.inj (Except.ok.inj h)
        refine ⟨List.suffix_cons _ _, fun f tail htail => ?_⟩
        rw [List.map_cons, List.cons_append, name, isName_carried t tokens tail f htail, if_pos ht]
        rfl
      · cases h
    · rw [name] at h
      split at h
      · cases h
      · next ht =>
        obtain rfl := Except.error.inj h
        rw [List.map_cons, List.cons_append, name, isName_carried t tokens tail f htail, if_neg ht]
        rfl

theorem columnRef_carries : Carries columnRef := by
  unfold columnRef
  refine name_carries.bind fun _ => (accept_carries (by simp)).bind fun _ => ?_
  exact .ite (name_carries.bind fun _ => .pure _) (.pure _)

theorem literalBy_carries {read? : Token → Option Literal}
    (hend : ∀ t : Token, t.kind = .semicolon → read? t = none)
    (hmoved : ∀ f t, read? (Token.moved f t) = read? t) : Carries (literalBy read?) := by
  unfold literalBy
  refine .peek (fun t tokens => ?_) (.stop _) (fun t ht => ?_) fun f t => ?_
  · rw [Option.bind_some]
    cases read? t with
    | some l => exact (Carries.pure l).advance t tokens
    | none => exact Carries.stop _ _
  · rw [Option.bind_some, hend t ht]
    rfl
  · rw [Option.bind_some, Option.bind_some, hmoved]

theorem defaultLiteral_carries : Carries defaultLiteral :=
  literalBy_carries (fun t ht => by rw [literalOf?, ht]) fun _ _ => rfl

theorem value_carries : Carries value :=
  literalBy_carries (fun t ht => by rw [valueOf?, literalOf?, ht]) fun _ _ => rfl

/-! ## CREATE -/

theorem ifNotExists_carries : Carries ifNotExists := by
  unfold ifNotExists
  refine (acceptWord_carries _).bind fun _ => .ite ?_ (.pure _)
  exact (expectWord_carries _).bind fun _ => (expectWord_carries _).bind fun _ => .pure _

theorem typeName_carries : Carries typeName := by
  unfold typeName
  refine name_carries.bind fun type => (accept_carries (by simp)).bind fun _ => ?_
  refine .ite ?_ (.pure _)
  refine (expect_carries (by simp)).bind fun _ => (accept_carries (by simp)).bind fun _ => ?_
  refine .ite ?_ ?_
  · exact (expect_carries (by simp)).bind fun _ => (expect_carries (by simp)).bind fun _ => .pure _
  · exact (expect_carries (by simp)).bind fun _ => .pure _

theorem columnOption?_carries (type : String) : Carries (columnOption? type) := by
  unfold columnOption?
  refine .peekKind (fun t tokens => ?_) (.stop _) rfl
  split
  · exact (Carries.pure _).advance t tokens
  · exact ((expectWord_carries _).bind fun _ => .pure _).advance t tokens
  · exact (Carries.pure _).advance t tokens
  · exact ((expectWord_carries _).bind fun _ => .pure _).advance t tokens
  · exact (Carries.pure _).advance t tokens
  · exact (defaultLiteral_carries.bind fun _ => .pure _).advance t tokens
  · split
    · exact Carries.stop _ _
    · exact ((expectWord_carries _).bind fun _ => (expectWord_carries _).bind fun _ =>
        .pure _).advance t tokens
  · exact Carries.pure _ _
  · exact Carries.pure _ _
  · exact Carries.stop _ _

theorem columnDef_carries : Carries columnDef := by
  unfold columnDef
  refine name_carries.bind fun _ => typeName_carries.bind fun type => ?_
  exact (many_carries (columnOption?_carries type)).bind fun _ => .pure _

theorem tableItem_carries : Carries tableItem := by
  unfold tableItem
  refine (acceptWord_carries _).bind fun _ => .ite ?_ (columnDef_carries.bind fun _ => .pure _)
  refine (expectWord_carries _).bind fun _ => ?_
  exact (parenthesised_carries (commaList_carries name_carries)).bind fun _ => .pure _

theorem createTable_carries : Carries createTable := by
  unfold createTable
  refine (expectWord_carries _).bind fun _ => ifNotExists_carries.bind fun _ => ?_
  refine name_carries.bind fun _ => ?_
  refine (parenthesised_carries (commaList_carries tableItem_carries)).bind fun _ => ?_
  exact .ite ((Carries.stop _).bind fun _ => .pure _) (.pure _)

theorem indexColumn_carries : Carries indexColumn := by
  unfold indexColumn
  refine name_carries.bind fun _ => (acceptWord_carries _).bind fun _ => ?_
  exact .ite ((expectWord_carries _).bind fun _ => .pure _) (.pure _)

theorem createIndex_carries : Carries createIndex := by
  unfold createIndex
  refine (acceptWord_carries _).bind fun _ => (expectWord_carries _).bind fun _ => ?_
  refine ifNotExists_carries.bind fun _ => name_carries.bind fun _ => ?_
  refine (expectWord_carries _).bind fun _ => name_carries.bind fun _ => ?_
  exact (parenthesised_carries (commaList_carries indexColumn_carries)).bind fun _ => .pure _

/-- What follows CREATE. -/
theorem create_carried (t : Token) (tokens : List Token) : Carried create (t :: tokens) := by
  unfold create
  refine Carries.advance (.peekKind (fun t tokens => ?_) (.stop _) rfl) t tokens
  split
  · exact (createTable_carries.bind fun _ => .pure _) _
  · exact (createIndex_carries.bind fun _ => .pure _) _
  · exact (createIndex_carries.bind fun _ => .pure _) _
  · exact Carries.stop _ _

/-! ## INSERT -/

theorem valueRow_carries (width : Nat) : Carries (valueRow width) := by
  unfold valueRow
  refine (expect_carries (by simp)).bind fun _ => ?_
  refine (commaList_carries value_carries).bind fun _ => ?_
  refine .ite ((Carries.stop _).bind fun _ => ?_) ?_
  · exact (expect_carries (by simp)).bind fun _ => .pure _
  · exact (expect_carries (by simp)).bind fun _ => .pure _

theorem insert_carried (t : Token) (tokens : List Token) : Carried insert (t :: tokens) := by
  unfold insert
  refine Carries.advance ((expectWord_carries _).bind fun _ => ?_) t tokens
  refine name_carries.bind fun _ => ?_
  refine (parenthesised_carries (commaList_carries name_carries)).bind fun columns => ?_
  refine (expectWord_carries _).bind fun _ => ?_
  refine (commaList_carries (valueRow_carries columns.length)).bind fun _ => ?_
  exact (optional_carries (acceptWord_carries _) name_carries).bind fun _ => .pure _

/-! ## Conditions -/

theorem acceptOne_carries : Carries acceptOne := by
  unfold acceptOne
  refine .peek (fun t tokens => ?_) (.pure _) (fun t ht => ?_) fun _ _ => rfl
  · dsimp only
    split
    · exact (Carries.pure true).advance t tokens
    · exact Carries.pure false _
  · simp [ht]

theorem columnCondition_carries : Carries columnCondition := by
  unfold columnCondition
  refine columnRef_carries.bind fun column => (acceptWord_carries _).bind fun _ => .ite ?_ ?_
  · refine (acceptWord_carries _).bind fun _ => (expectWord_carries _).bind fun _ => ?_
    exact .pure _
  refine (acceptWord_carries _).bind fun _ => (acceptWord_carries _).bind fun _ => .ite ?_ ?_
  · exact (parenthesised_carries (commaList_carries value_carries)).bind fun _ => .pure _
  -- the comparison is read whether or not there is a NOT, which it refuses
  refine .ite ((Carries.stop _).bind fun _ => ?_) ?_
  all_goals
    refine .peekKind (fun t tokens => ?_) (.stop _) rfl
    rw [Option.bind_some]
    cases compareOp? t.kind with
    | some op => exact (value_carries.bind fun _ => .pure _).advance t tokens
    | none => exact Carries.stop _ _

theorem bareCondition_carries : Carries bareCondition := by
  unfold bareCondition
  refine acceptOne_carries.bind fun _ => .ite ?_ columnCondition_carries
  refine (accept_carries (by simp)).bind fun _ => .ite ?_ (.pure _)
  exact acceptOne_carries.bind fun _ => .ite ((Carries.stop _).bind fun _ => .pure _) (.pure _)

theorem closeParentheses_carries (n : Nat) : Carries (closeParentheses n) := by
  induction n with
  | zero => exact .pure _
  | succ n ih => exact (expect_carries (by simp)).bind fun _ => ih

theorem condition_carries : Carries condition := by
  unfold condition
  refine (skipAll_carries (by simp)).bind fun n => bareCondition_carries.bind fun _ => ?_
  exact (closeParentheses_carries n).bind fun _ => .pure _

theorem anotherCondition_carries : Carries anotherCondition := by
  unfold anotherCondition
  refine .peekKind (fun t tokens => ?_) (acceptWord_carries _) rfl
  split
  · exact Carries.stop _ _
  · exact acceptWord_carries _ _

theorem conditions_carries (absent : List Condition) : Carries (conditions absent) := by
  unfold conditions
  refine (acceptWord_carries _).bind fun _ => .ite ?_ (.pure _)
  exact separated_carries anotherCondition_carries condition_carries

/-! ## SELECT -/

theorem distinct_carries : Carries distinct := by
  unfold distinct
  refine (acceptWord_carries _).bind fun _ => .ite ?_ (.pure _)
  refine (acceptWord_carries _).bind fun _ => .ite ?_ (.pure _)
  exact (parenthesised_carries (commaList_carries columnRef_carries)).bind fun _ => .pure _

theorem countArg_carries : Carries countArg := by
  unfold countArg
  refine (accept_carries (by simp)).bind fun _ => .ite (.pure _) ?_
  exact columnRef_carries.bind fun _ => .pure _

theorem projection_carries : Carries projection := by
  have hcolumn : Carries (columnRef >>= fun c => pure (Projection.column c)) :=
    columnRef_carries.bind fun _ => .pure _
  unfold projection
  refine (accept_carries (by simp)).bind fun _ => .ite (.pure _) ?_
  refine .peekTwo (fun t second tokens => ?_) hcolumn (fun second => rfl) fun first => ?_
  · split
    · exact ((parenthesised_carries countArg_carries).bind fun _ => .pure _).advance t tokens
    · exact hcolumn _
  · simp

theorem join_carries : Carries join := by
  unfold join
  refine name_carries.bind fun _ => (expectWord_carries _).bind fun _ => ?_
  refine columnRef_carries.bind fun _ => (expect_carries (by simp)).bind fun _ => ?_
  exact columnRef_carries.bind fun _ => .pure _

theorem sortKey_carries : Carries sortKey := by
  unfold sortKey
  refine columnRef_carries.bind fun _ => (acceptWord_carries _).bind fun _ => .ite (.pure _) ?_
  exact (acceptWord_carries _).bind fun _ => .pure _

theorem orderBy_carries : Carries orderBy := by
  unfold orderBy
  refine (acceptWord_carries _).bind fun _ => .ite ?_ (.pure _)
  exact (expectWord_carries _).bind fun _ => commaList_carries sortKey_carries

theorem rowCount_carries : Carries rowCount := by
  unfold rowCount
  refine .peek (fun t tokens => ?_) (.stop _) (fun t ht => ?_) fun _ _ => rfl
  · dsimp only
    split
    · split
      · exact (Carries.pure _).advance t tokens
      · exact Carries.stop _ _
    · exact Carries.stop _ _
  · simp [ht]

theorem forUpdate_carries : Carries forUpdate := by
  unfold forUpdate
  refine (acceptWord_carries _).bind fun _ => .ite ?_ (.pure _)
  exact (expectWord_carries _).bind fun _ => .pure _

theorem select_carried (t : Token) (tokens : List Token) : Carried select (t :: tokens) := by
  unfold select
  refine Carries.advance (distinct_carries.bind fun _ => ?_) t tokens
  refine (commaList_carries projection_carries).bind fun _ => ?_
  refine (expectWord_carries _).bind fun _ => (commaList_carries name_carries).bind fun _ => ?_
  refine (many_carries (optional_carries (acceptWord_carries _) join_carries)).bind fun _ => ?_
  refine (conditions_carries _).bind fun _ => orderBy_carries.bind fun _ => ?_
  refine (optional_carries (acceptWord_carries _) rowCount_carries).bind fun _ => ?_
  refine (optional_carries (acceptWord_carries _) rowCount_carries).bind fun _ => ?_
  exact forUpdate_carries.bind fun _ => .pure _

/-! ## The other statements -/

theorem assignment_carries : Carries assignment := by
  unfold assignment
  refine name_carries.bind fun _ => (expect_carries (by simp)).bind fun _ => ?_
  exact value_carries.bind fun _ => .pure _

theorem update_carried (t : Token) (tokens : List Token) : Carried update (t :: tokens) := by
  unfold update
  refine Carries.advance (name_carries.bind fun _ => (expectWord_carries _).bind fun _ => ?_) t
    tokens
  refine (commaList_carries assignment_carries).bind fun _ => ?_
  exact (conditions_carries _).bind fun _ => .pure _

theorem delete_carried (t : Token) (tokens : List Token) : Carried delete (t :: tokens) := by
  unfold delete
  refine Carries.advance ((expectWord_carries _).bind fun _ => ?_) t tokens
  exact name_carries.bind fun _ => (conditions_carries _).bind fun _ => .pure _

theorem truncate_carried (t : Token) (tokens : List Token) : Carried truncate (t :: tokens) := by
  unfold truncate
  exact Carries.advance ((acceptWord_carries _).bind fun _ => name_carries) t tokens

theorem drop_carried (t : Token) (tokens : List Token) : Carried drop (t :: tokens) := by
  unfold drop
  refine Carries.advance ((expectWord_carries _).bind fun _ => ?_) t tokens
  refine (acceptWord_carries _).bind fun _ => .ite ?_ ?_
  · exact (expectWord_carries _).bind fun _ => name_carries.bind fun _ => .pure _
  · exact name_carries.bind fun _ => .pure _

theorem statement_carries : Carries statement := by
  unfold statement
  refine .peekKind (fun t tokens => ?_) (.stop _) rfl
  split
  · exact create_carried t tokens
  · exact (select_carried t tokens).bind fun _ => .pure _
  · exact (insert_carried t tokens).bind fun _ => .pure _
  · exact (update_carried t tokens).bind fun _ => .pure _
  · exact (delete_carried t tokens).bind fun _ => .pure _
  · exact (truncate_carried t tokens).bind fun _ => .pure _
  · exact drop_carried t tokens
  · exact (skipUntil_carries.bind fun _ => .pure _) _
  · exact Carries.stop _ _

/-! ## One statement after the other -/

/-- The tokens from the first that is no semicolon. -/
def pastSemicolons (tokens : List Token) : List Token :=
  tokens.dropWhile (·.kind == .semicolon)

theorem skipAll_eq (tokens : List Token) :
    skipAll .semicolon tokens =
      .ok ((tokens.takeWhile (·.kind == .semicolon)).length, pastSemicolons tokens) := by
  have hdrop : tokens.drop (tokens.takeWhile (·.kind == .semicolon)).length =
      pastSemicolons tokens := by
    conv => lhs; arg 2; rw [← List.takeWhile_append_dropWhile (p := (·.kind == .semicolon))
      (l := tokens)]
    rw [List.drop_left, pastSemicolons]
  rw [skipAll, hdrop]

/-- A statement with what has to follow it. -/
def closedStatement : Reader (Option Statement) := do
  let s ← statement
  match ← peekKind? with
  | none => return some s
  | some .semicolon => return some s
  | some _ => stop "expected ; or end of statement"

theorem closedStatement_carries : Carries closedStatement := by
  unfold closedStatement
  refine statement_carries.bind fun s => .peekKind (fun t tokens => ?_) (.pure _) rfl
  split
  · exact Carries.pure _ _
  · exact Carries.pure _ _
  · exact Carries.stop _ _

/-- No statement is left where only semicolons are. -/
theorem nextStatement?_none {tokens : List Token} (h : pastSemicolons tokens = []) :
    nextStatement? tokens = .ok (none, []) := by
  rw [nextStatement?, bind_of_ok (skipAll_eq tokens), h]
  rfl

theorem nextStatement?_eq {tokens : List Token} (h : pastSemicolons tokens ≠ []) :
    nextStatement? tokens = closedStatement (pastSemicolons tokens) := by
  have hend : (pastSemicolons tokens).isEmpty = false := by
    simpa using h
  have hatEnd : atEnd (pastSemicolons tokens) = .ok (false, pastSemicolons tokens) := by
    rw [atEnd, hend]
  rw [nextStatement?, bind_of_ok (skipAll_eq tokens), bind_of_ok hatEnd, if_neg (by simp)]
  rfl

/-- The next statement begins after semicolons, and a semicolon or nothing follows it. -/
theorem nextStatement?_some {tokens : List Token} (h : pastSemicolons tokens ≠ [])
    {p : Option Statement × List Token} :
    nextStatement? tokens = .ok p ↔
      ∃ s, statement (pastSemicolons tokens) = .ok (s, p.2) ∧ p.1 = some s ∧ Token.Ends p.2 := by
  rw [nextStatement?_eq h, closedStatement]
  constructor
  · intro hnext
    obtain ⟨⟨s, rest⟩, hs, hnext⟩ := bind_eq_ok.1 hnext
    have hpeek : peekKind? rest = .ok (rest.head?.map (·.kind), rest) := rfl
    dsimp only at hnext
    rw [bind_of_ok hpeek] at hnext
    generalize hkind : rest.head?.map (·.kind) = kind at hnext
    cases kind with
    | none =>
      obtain rfl := Except.ok.inj hnext
      refine ⟨s, hs, rfl, fun t ht => ?_⟩
      rw [Option.map_eq_none_iff.1 hkind] at ht
      cases ht
    | some k =>
      by_cases hk : k = .semicolon
      · subst hk
        obtain rfl := Except.ok.inj hnext
        refine ⟨s, hs, rfl, fun t ht => ?_⟩
        rw [Option.mem_def.1 ht] at hkind
        exact Option.some.inj hkind
      · cases k <;> first | exact absurd rfl hk | cases hnext
  · rintro ⟨s, hs, hp, hends⟩
    obtain ⟨o, rest⟩ := p
    obtain rfl : o = some s := hp
    rw [bind_of_ok hs]
    cases rest with
    | nil => rfl
    | cons t rest =>
      have hpeek : peekKind? (t :: rest) = .ok (some .semicolon, t :: rest) := by
        rw [← hends t rfl]
        rfl
      rw [bind_of_ok hpeek]
      rfl

/-- A statement takes at least one token. -/
theorem nextStatement?_shortens {tokens rest : List Token} {s : Statement}
    (h : nextStatement? tokens = .ok (some s, rest)) : rest.length < tokens.length := by
  have hle : (pastSemicolons tokens).length ≤ tokens.length :=
    (List.dropWhile_suffix _).length_le
  by_cases hbody : pastSemicolons tokens = []
  · rw [nextStatement?_none hbody] at h
    cases h
  · obtain ⟨s', hs, -, hends⟩ := (nextStatement?_some hbody).1 h
    have hsuffix := ((statement_carries _).taken s' rest hs).1
    -- a statement does not begin with a semicolon, so that what is left is not all there was
    have hne : rest ≠ pastSemicolons tokens := by
      intro heq
      obtain ⟨t, others, hlist⟩ := List.exists_cons_of_ne_nil hbody
      have hhead : (t.kind == .semicolon) = false := by
        have hnot := List.head?_dropWhile_not (fun t : Token => t.kind == .semicolon) tokens
        have hcons : tokens.dropWhile (fun t : Token => t.kind == .semicolon) = t :: others := hlist
        rwa [hcons] at hnot
      have hkind := hends t (by rw [heq, hlist]; rfl)
      simp [hkind] at hhead
    have hlt : rest.length ≠ (pastSemicolons tokens).length := fun hlen =>
      hne (hsuffix.eq_of_length hlen)
    have := hsuffix.length_le
    omega

theorem pastSemicolons_append {tokens : List Token} (h : pastSemicolons tokens = [])
    (f : Nat → Nat) (tail : List Token) :
    pastSemicolons (tokens.map (Token.moved f) ++ tail) = pastSemicolons tail := by
  have hall : ∀ t ∈ tokens.map (Token.moved f), (t.kind == .semicolon) = true := by
    intro t ht
    obtain ⟨t', ht', rfl⟩ := List.mem_map.1 ht
    exact List.dropWhile_eq_nil_iff.1 h t' ht'
  exact List.dropWhile_append_of_pos hall

/-- Semicolons are passed over up to the same token, whatever comes after it. -/
theorem pastSemicolons_append_of_ne {tokens : List Token} (h : pastSemicolons tokens ≠ [])
    (f : Nat → Nat) (tail : List Token) :
    pastSemicolons (tokens.map (Token.moved f) ++ tail) =
      (pastSemicolons tokens).map (Token.moved f) ++ tail := by
  have hmoved : ((fun t : Token => t.kind == .semicolon) ∘ Token.moved f) =
      fun t : Token => t.kind == .semicolon := rfl
  rw [pastSemicolons, List.dropWhile_append, List.dropWhile_map, hmoved, if_neg]
  · rfl
  · rw [List.isEmpty_iff, List.map_eq_nil_iff]
    exact h

/-- Only what comes after semicolons counts. -/
theorem many_congr {tokens tokens' : List Token}
    (h : pastSemicolons tokens = pastSemicolons tokens') :
    many nextStatement? tokens = many nextStatement? tokens' := by
  have hnext : nextStatement? tokens = nextStatement? tokens' := by
    rw [nextStatement?, bind_of_ok (skipAll_eq tokens), bind_of_ok (skipAll_eq tokens'), h]
  cases hresult : nextStatement? tokens' with
  | error e => rw [many, many, hnext, hresult]
  | ok p =>
    obtain ⟨o, rest⟩ := p
    cases o with
    | none => rw [many, many, hnext, hresult]
    | some s =>
      rw [many, many, hnext, hresult]
      dsimp only
      rw [if_pos (nextStatement?_shortens (hnext.trans hresult)),
        if_pos (nextStatement?_shortens hresult)]

/-- The next statement is read up to a semicolon as if nothing came after it. -/
theorem nextStatement?_append {tokens rest : List Token} {s : Statement}
    (h : nextStatement? tokens = .ok (some s, rest)) (f : Nat → Nat) {tail : List Token}
    (htail : Token.Ends tail) :
    nextStatement? (tokens.map (Token.moved f) ++ tail) =
      .ok (some s, rest.map (Token.moved f) ++ tail) := by
  have hbody : pastSemicolons tokens ≠ [] := by
    intro hbody
    rw [nextStatement?_none hbody] at h
    cases h
  obtain ⟨s', hs, hsome, hends⟩ := (nextStatement?_some hbody).1 h
  obtain rfl := Option.some.inj hsome
  have hpast := pastSemicolons_append_of_ne hbody f tail
  have hne : pastSemicolons (tokens.map (Token.moved f) ++ tail) ≠ [] := by
    simp [hpast, hbody]
  refine (nextStatement?_some hne).2 ⟨s, ?_, rfl, fun t ht => ?_⟩
  · rw [hpast]
    exact ((statement_carries _).taken s rest hs).2 f tail htail
  · cases rest with
    | nil => exact htail t ht
    | cons t' rest =>
      obtain rfl := Option.some.inj ht
      exact hends t' rfl

/-- Statements are read up to a semicolon as if nothing came after it. -/
theorem many_append {tokens rest : List Token} {a : List Statement} :
    many nextStatement? tokens = .ok (a, rest) → ∀ f tail, Token.Ends tail →
      many nextStatement? (tokens.map (Token.moved f) ++ tail) =
        (many nextStatement? tail).map fun p => (a ++ p.1, p.2) := by
  fun_induction many nextStatement? tokens generalizing a rest with
  | case1 tokens e he => intro h; cases h
  | case2 tokens middle hnone =>
    intro h f tail htail
    obtain ⟨rfl, rfl⟩ := Prod.mk.inj (Except.ok.inj h)
    have hpast : pastSemicolons tokens = [] := by
      by_contra hbody
      obtain ⟨s, -, hs, -⟩ := (nextStatement?_some hbody).1 hnone
      cases hs
    rw [many_congr (pastSemicolons_append hpast f tail)]
    cases many nextStatement? tail <;> rfl
  | case3 tokens x middle hsome hlt e he ih => intro h; cases h
  | case4 tokens s middle hsome hlt others last hmany ih =>
    intro h f tail htail
    obtain ⟨rfl, rfl⟩ := Prod.mk.inj (Except.ok.inj h)
    have hfirst := nextStatement?_append hsome f htail
    rw [many, hfirst]
    dsimp only
    rw [if_pos (nextStatement?_shortens hfirst), ih hmany f tail htail]
    cases many nextStatement? tail <;> rfl
  | case5 tokens x middle hsome hlt => exact absurd (nextStatement?_shortens hsome) hlt

/-- A statement is refused as if nothing came after the semicolon that follows. -/
theorem nextStatement?_stuck {tokens : List Token} {s : Stuck}
    (h : nextStatement? tokens = .error s) (f : Nat → Nat) (tail : List Token)
    (htail : Token.Ends tail) :
    nextStatement? (tokens.map (Token.moved f) ++ tail) = .error (s.moved f tail) := by
  have hbody : pastSemicolons tokens ≠ [] := by
    intro hbody
    rw [nextStatement?_none hbody] at h
    cases h
  have hpast := pastSemicolons_append_of_ne hbody f tail
  rw [nextStatement?_eq hbody] at h
  rw [nextStatement?_eq (by simp [hpast, hbody]), hpast]
  exact (closedStatement_carries _).stuck s h f tail htail

end Reader

/-- Where tokens stand makes no difference to whether they are statements. -/
theorem Reader.many_moved {tokens rest : List Token} {a : List Statement}
    (h : many nextStatement? tokens = .ok (a, rest)) (f : Nat → Nat) :
    many nextStatement? (tokens.map (Token.moved f)) = .ok (a, []) := by
  have hend : many nextStatement? [] = .ok ([], []) := by
    rw [many, nextStatement?_none rfl]
  have happend := many_append h f [] (by intro t ht; cases ht)
  rw [List.append_nil, hend] at happend
  rw [happend]
  exact congrArg (fun b => Except.ok (b, [])) (List.append_nil a)

theorem Statement.ofTokens_toOption (tokens : List Token) :
    (ofTokens tokens).toOption =
      (Reader.many Reader.nextStatement? tokens).toOption.map Prod.fst := by
  unfold ofTokens
  cases Reader.many Reader.nextStatement? tokens <;> rfl

theorem Statement.ofTokens_eq_ok {tokens : List Token} {a : List Statement}
    (h : ofTokens tokens = .ok a) :
    ∃ rest, Reader.many Reader.nextStatement? tokens = .ok (a, rest) := by
  unfold ofTokens at h
  split at h
  · next read rest hmany =>
    obtain rfl := Except.ok.inj h
    exact ⟨rest, hmany⟩
  · cases h

/-- The fault shows what tokens stand for, and not where they stand. -/
theorem Stuck.fault_moved (s : Stuck) (tokens : List Token) (f : Nat → Nat) :
    (s.moved f []).fault (tokens.map (Token.moved f)) = s.fault tokens := by
  obtain ⟨message, rest⟩ := s
  unfold fault moved
  simp only [List.append_nil, List.length_map, List.getElem?_map]
  cases tokens.length - rest.length with
  | zero => rcases rest with _ | ⟨t, _ | ⟨t', rest⟩⟩ <;> rfl
  | succ n =>
    dsimp only
    cases tokens[n]? <;> rcases rest with _ | ⟨t, _ | ⟨t', rest⟩⟩ <;> rfl

/-- Where tokens stand makes no difference to the statements that they are, nor to the fault. -/
theorem Statement.ofTokens_moved (tokens : List Token) (f : Nat → Nat) :
    ofTokens (tokens.map (Token.moved f)) = ofTokens tokens := by
  cases hmany : Reader.many Reader.nextStatement? tokens with
  | ok p =>
    rw [ofTokens, ofTokens, hmany, Reader.many_moved hmany f]
  | error s =>
    have hmoved := Reader.many_stuck (fun h f _ => Reader.nextStatement?_append h f)
      Reader.nextStatement?_stuck hmany f [] (by intro t ht; cases ht)
    rw [List.append_nil] at hmoved
    rw [ofTokens, ofTokens, hmany, hmoved]
    exact congrArg Except.error (s.fault_moved tokens f)

/-- After a semicolon tokens are read as if nothing came before, wherever they stood. -/
theorem Statement.ofTokens_append {tokens : List Token} {a : List Statement}
    (h : ofTokens tokens = .ok a) {semicolon : Token} (hkind : semicolon.kind = .semicolon)
    (f : Nat → Nat) (others : List Token) :
    (ofTokens (tokens ++ semicolon :: others.map (Token.moved f))).toOption =
      (ofTokens others).toOption.map (a ++ ·) := by
  obtain ⟨rest, hmany⟩ := ofTokens_eq_ok h
  have hid : tokens.map (Token.moved id) = tokens := List.map_id tokens
  have hjoined := Reader.many_append hmany id (semicolon :: others.map (Token.moved f))
    (fun t ht => Option.some.inj ht ▸ hkind)
  have hpast : Reader.pastSemicolons (semicolon :: others.map (Token.moved f)) =
      Reader.pastSemicolons (others.map (Token.moved f)) :=
    List.dropWhile_cons_of_pos (by simp [hkind])
  rw [hid, Reader.many_congr hpast] at hjoined
  rw [← ofTokens_moved others f, ofTokens_toOption, ofTokens_toOption, hjoined]
  cases Reader.many Reader.nextStatement? (others.map (Token.moved f)) <;> rfl

/-- Before a semicolon tokens are read as if nothing came after, and if they are read, so are those
after it. -/
theorem Statement.ofTokens_divided (tokens : List Token) {semicolon : Token}
    (hkind : semicolon.kind = .semicolon) (f : Nat → Nat) (others : List Token) :
    (ofTokens (tokens ++ semicolon :: others.map (Token.moved f))).toOption =
      (ofTokens tokens).toOption.bind fun a => (ofTokens others).toOption.map (a ++ ·) := by
  cases hread : ofTokens tokens with
  | ok a => exact ofTokens_append hread hkind f others
  | error fault =>
    cases hmany : Reader.many Reader.nextStatement? tokens with
    | ok p =>
      rw [ofTokens, hmany] at hread
      cases hread
    | error s =>
      have hid : tokens.map (Token.moved id) = tokens := List.map_id tokens
      have hstuck := Reader.many_stuck (fun h f _ => Reader.nextStatement?_append h f)
        Reader.nextStatement?_stuck hmany id (semicolon :: others.map (Token.moved f))
        fun t ht => Option.some.inj ht ▸ hkind
      rw [hid] at hstuck
      rw [ofTokens_toOption, hstuck]
      rfl

end Tabula
