import Tabula.Proofs.Layout

/-!
# Numbers that are found and numbers that are stored

A text between dollars is found to be a number if it reads as one without the blanks around it, but
a column of decimals reads the whole of it.  A number that stands alone has no blanks around it.

* `Number.Decimal.trim_of_read?`: what reads as a number has no blanks around it.
* `Lexeme.number_cases`: numbers stand alone or between dollars.
* `Token.number_coerced`: a column of decimals stores every number of a text but those that stand
  between dollars with blanks around them.
-/

namespace Tabula

/-! ## Lemmas -/

/-! ### What reads as a number has no blanks around it -/

namespace Number.Decimal

/-- The characters of a word that is read are letters. -/
theorem blank_of_readWord? {cs : List Char} {x : Float} (h : readWord? cs = some x) :
    ∀ c ∈ cs, Text.isBlank c = false := by
  have hletters {word : String} (hword : word.toList.all Char.isLower = true)
      (heq : String.ofList (cs.map Char.toLower) = word) : ∀ c ∈ cs, Text.isBlank c = false := by
    intro c hc
    have hlower : c.toLower.isLower = true := by
      refine List.all_eq_true.1 hword _ ?_
      rw [← heq, String.toList_ofList]
      exact List.mem_map_of_mem hc
    have hbounds := Text.isAlpha_bounds (Text.isAlpha_of_toLower hlower rfl)
    exact Text.isBlank_of_ascii (by omega) (by omega)
  unfold readWord? at h
  dsimp only at h
  split at h
  · next hword =>
    rw [Bool.or_eq_true, decide_eq_true_eq, decide_eq_true_eq] at hword
    rcases hword with hword | hword
    · exact hletters (by decide) hword
    · exact hletters (by decide) hword
  · split at h
    · next hword => exact hletters (by decide) hword
    · cases h

/-- The characters of an exponent are digits after a sign. -/
theorem blank_of_readExponent? {cs : List Char} {e : Int} (h : readExponent? cs = some e) :
    ∀ c ∈ cs, Text.isBlank c = false := by
  have hvalue {ds : List Char} {n : Int}
      (hds : (if !ds.isEmpty && ds.all Char.isDigit then some (ofDigits ds : Int) else none) =
        some n) : ∀ c ∈ ds, Text.isBlank c = false := by
    split at hds
    · next hdigits =>
      rw [Bool.and_eq_true] at hdigits
      exact fun c hc => (Lexeme.ordinary_of_isDigit (List.all_eq_true.1 hdigits.2 c hc)).blank
    · cases hds
  unfold readExponent? at h
  split at h
  · exact List.forall_mem_cons.2 ⟨by decide, hvalue h⟩
  · obtain ⟨n, hn, -⟩ := Option.map_eq_some_iff.1 h
    exact List.forall_mem_cons.2 ⟨by decide, hvalue hn⟩
  · exact hvalue h

theorem blank_of_readTail? {cs : List Char} {e : Int} (h : readTail? cs = some e) :
    ∀ c ∈ cs, Text.isBlank c = false := by
  cases cs with
  | nil => simp
  | cons c rest =>
    simp only [readTail?] at h
    split at h
    · next hmark =>
      rw [Bool.or_eq_true, decide_eq_true_eq, decide_eq_true_eq] at hmark
      refine List.forall_mem_cons.2 ⟨?_, blank_of_readExponent? h⟩
      rcases hmark with rfl | rfl <;> decide
    · cases h

/-- The characters of a numeral are digits, a point, and those of its exponent. -/
theorem blank_of_readUnsigned? {cs : List Char} {x : Float} (h : readUnsigned? cs = some x) :
    ∀ c ∈ cs, Text.isBlank c = false := by
  have hdigits (ds : List Char) : ∀ c ∈ ds.takeWhile Char.isDigit, Text.isBlank c = false :=
    fun c hc => (Lexeme.ordinary_of_isDigit (List.mem_takeWhile_imp hc)).blank
  have htail {tail : List Char} {bad : Bool} {f : Int → Float}
      (h : (if bad then none else (readTail? tail).map f) = some x) :
      ∀ c ∈ tail, Text.isBlank c = false := by
    split at h
    · cases h
    · obtain ⟨e, he, -⟩ := Option.map_eq_some_iff.1 h
      exact blank_of_readTail? he
  rw [← List.takeWhile_append_dropWhile (p := Char.isDigit) (l := cs)]
  refine List.forall_mem_append.2 ⟨hdigits cs, ?_⟩
  unfold readUnsigned? at h
  dsimp only at h
  split at h
  · next r hpoint =>
    rw [hpoint, ← List.takeWhile_append_dropWhile (p := Char.isDigit) (l := r)]
    exact List.forall_mem_cons.2 ⟨by decide, List.forall_mem_append.2 ⟨hdigits r, htail h⟩⟩
  · exact htail h

/-- What reads as a number has no blanks around it. -/
theorem trim_of_read? {cs : List Char} {x : Float} (h : read? cs = some x) :
    Text.trim cs = cs := by
  have hmagnitude {r : List Char} {y : Float}
      (hy : (readWord? r <|> readUnsigned? r) = some y) : ∀ c ∈ r, Text.isBlank c = false := by
    cases hword : readWord? r with
    | some z => exact blank_of_readWord? hword
    | none =>
      rw [hword] at hy
      exact blank_of_readUnsigned? hy
  apply Lexeme.trim_of_not_blank
  unfold read? at h
  dsimp only at h
  split at h
  · exact List.forall_mem_cons.2 ⟨by decide, hmagnitude h⟩
  · obtain ⟨y, hy, -⟩ := Option.map_eq_some_iff.1 h
    exact List.forall_mem_cons.2 ⟨by decide, hmagnitude hy⟩
  · exact hmagnitude h

end Number.Decimal

/-! ### Where numbers come from -/

namespace Lexeme

/-- No rule but those for dollars and for numbers finds a number. -/
theorem number_cases {cs : List Char} {l : Lexeme} (h : first? cs = some l)
    (hkind : l.kind = .number) : dollar? cs = some l ∨ number? cs = some l := by
  obtain ⟨rule, hrule, hl⟩ := List.exists_of_findSome?_eq_some h
  have hquoted {quote : Char} {kind : TokenKind} (hfound : quoted? quote kind cs = some l) :
      kind = .number := by
    unfold quoted? at hfound
    split at hfound
    · cases hfound
    · split at hfound
      · obtain ⟨_, -, rfl⟩ := Option.map_eq_some_iff.1 hfound
        exact hkind
      · cases hfound
  simp only [rules, List.mem_cons, List.not_mem_nil, or_false] at hrule
  rcases hrule with rfl | rfl | rfl | rfl | rfl | rfl | rfl | rfl | rfl | rfl | rfl
  · unfold space? at hl
    grind
  · unfold comment? at hl
    grind
  · unfold mark? at hl
    grind
  · cases hquoted hl
  · cases hquoted hl
  · cases hquoted hl
  · exact .inl hl
  · unfold now? at hl
    grind
  · unfold date? at hl
    grind
  · exact .inr hl
  · unfold word? at hl
    grind

end Lexeme

namespace Token

/-- A token is what the first rule finds where it begins. -/
theorem first?_of_mem {text : String} {tokens : List Token} (hscan : scan text = .ok tokens)
    {t : Token} (ht : t ∈ tokens) :
    ∃ l, Lexeme.first? (text.toList.drop t.position) = some l ∧ l.kind = t.kind ∧
      String.ofList l.text = t.lexeme := by
  obtain ⟨before, after, rfl⟩ := List.append_of_mem ht
  obtain ⟨u, v, htext, -, hv⟩ := scanFrom_divided hscan
  obtain ⟨l, hl, rfl, -⟩ := scanFrom_cons hv
  refine ⟨l, ?_, rfl, rfl⟩
  rw [htext, Nat.zero_add, List.drop_left]
  exact hl

/-! ## Top theorem -/

/-- A number of a text is read as a literal of that number, and without the blanks around it as a
decimal.  A column of decimals stores it if there are no blanks around it, and refuses it
otherwise; and then it stands between dollars. -/
theorem number_coerced {text : String} {tokens : List Token} (hscan : scan text = .ok tokens)
    {t : Token} (ht : t ∈ tokens) (hkind : t.kind = .number) {a : Column}
    (ha : a.columnType = .decimal) (now : String) :
    Reader.literalOf? t = some ⟨.number, t.lexeme⟩ ∧
    (∃ x, Number.Decimal.read? (Text.trim t.lexeme.toList) = some x ∧
      a.coerce now ⟨.number, t.lexeme⟩ =
        if Text.trim t.lexeme.toList = t.lexeme.toList then .ok (.decimal x)
        else .error (.notCoercible t.lexeme a.typeName)) ∧
    (Text.trim t.lexeme.toList ≠ t.lexeme.toList →
      '$' :: '$' :: t.lexeme.toList ++ ['$', '$'] <+: text.toList.drop t.position) := by
  have hsound : t.kind.Admits t.lexeme.toList := scanFrom_sound 0 text.toList hscan t ht
  rw [hkind] at hsound
  obtain ⟨x, hx⟩ : ∃ x, Number.Decimal.read? (Text.trim t.lexeme.toList) = some x := by
    have hdollar := hsound.1
    unfold Lexeme.dollarKind at hdollar
    split at hdollar
    · next hsome => exact Option.isSome_iff_exists.1 hsome
    · split at hdollar <;> cases hdollar
  have hcoerce : a.coerce now ⟨.number, t.lexeme⟩ =
      (Number.Decimal.read? t.lexeme.toList).elim (.error (.notCoercible t.lexeme a.typeName))
        fun y => .ok (.decimal y) := by
    unfold Column.coerce
    rw [if_neg (by simp [Literal.isGenerator]), if_neg (by simp), ha, Column.readLexeme?]
    cases Number.Decimal.read? t.lexeme.toList <;> rfl
  refine ⟨by rw [Reader.literalOf?, hkind], ⟨x, hx, ?_⟩, fun hblanks => ?_⟩
  · rw [hcoerce]
    by_cases htrim : Text.trim t.lexeme.toList = t.lexeme.toList
    · rw [if_pos htrim]
      rw [htrim] at hx
      rw [hx, Option.elim_some]
    · rw [if_neg htrim]
      cases hread : Number.Decimal.read? t.lexeme.toList with
      | none => rfl
      | some y => exact absurd (Number.Decimal.trim_of_read? hread) htrim
  · obtain ⟨l, hl, hlkind, hlexeme⟩ := first?_of_mem hscan ht
    rw [← hlexeme, String.toList_ofList] at hblanks ⊢
    rcases Lexeme.number_cases hl (hlkind.trans hkind) with hfound | hfound
    · obtain ⟨rest, found, hwidth, htext, hrest, rfl⟩ := Lexeme.dollar?_eq_some hfound
      obtain ⟨-, tail, rfl⟩ := Lexeme.dollarText?_eq_some.1 hrest
      rw [htext]
      exact ⟨tail, by simp⟩
    · exact absurd (Lexeme.trim_of_number? hfound) hblanks

/-- Of two numbers the one that stands alone is stored, and the one between dollars with blanks
around it is refused. -/
theorem number_coerced_of_blanks :
    let price : Column := ⟨"price", "decimal", false, false, false, none⟩
    let text := "-1.5 $$ 2 $$"
    let bare : Token := ⟨.number, "-1.5", 0⟩
    let dollars : Token := ⟨.number, " 2 ", 5⟩
    ∃ tokens, scan text = .ok tokens ∧ bare ∈ tokens ∧ dollars ∈ tokens ∧
      (∃ x, price.coerce "" ⟨.number, "-1.5"⟩ = .ok (.decimal x)) ∧
      price.coerce "" ⟨.number, " 2 "⟩ = .error (.notCoercible " 2 " "decimal") := by
  intro price text bare dollars
  have hscan : scan text = .ok [bare, ⟨.space, " ", 4⟩, dollars] := by decide +kernel
  refine ⟨_, hscan, by simp, by simp, ?_, ?_⟩
  · obtain ⟨-, ⟨x, -, hx⟩, -⟩ := number_coerced hscan (t := bare) (by simp) rfl (a := price) rfl ""
    rw [if_pos (by decide +kernel)] at hx
    exact ⟨x, hx⟩
  · obtain ⟨-, ⟨x, -, hx⟩, -⟩ :=
      number_coerced hscan (t := dollars) (by simp) rfl (a := price) rfl ""
    rw [if_neg (by decide +kernel)] at hx
    exact hx

/-- A number of a text is not always stored in a column of decimals. -/
theorem number_not_coerced :
    ¬ ∀ (text : String) (tokens : List Token) (t : Token) (a : Column) (now : String),
      scan text = .ok tokens → t ∈ tokens → t.kind = .number → a.columnType = .decimal →
      ∃ v, a.coerce now ⟨.number, t.lexeme⟩ = .ok v := by
  intro hstored
  have hscan : scan "$$ 5 $$" = .ok [⟨.number, " 5 ", 0⟩] := by decide +kernel
  have hrefused : Column.coerce "" (.ofType "price" "decimal") ⟨.number, " 5 "⟩ =
      .error (.notCoercible " 5 " "decimal") := by decide +kernel
  obtain ⟨v, hv⟩ := hstored _ _ ⟨.number, " 5 ", 0⟩ (.ofType "price" "decimal") "" hscan
    List.mem_cons_self rfl (by decide +kernel)
  rw [hrefused] at hv
  cases hv

end Token

end Tabula
