import Mathlib.Data.List.TakeWhile
import Tabula.Lookup
import Tabula.Proofs.Lexing

/-!
# What is known of tokens

The lexer says more of a token than its kind: the text of a number reads as a number between
dollars too, a keyword is spelled so that it stays one.  `Token.Sound` collects what printing a
token again relies on, and `Token.scan_sound` finds it in every token of every text.
-/

namespace Tabula

/-- What the text of a token of a kind is. -/
def TokenKind.Admits (text : List Char) : TokenKind → Prop
  | .number => Lexeme.dollarKind text = .number ∧ Lexeme.Dollarless text
  | .date => Lexeme.dollarKind text = .date ∧ Lexeme.Dollarless text
  | .now => text.map Char.toLower = ['n', 'o', 'w', '(', ')']
  | .keyword k => k.isSpelled (String.ofList text) = true
  | _ => True

/-- A token whose lexeme is what its kind asks for. -/
def Token.Sound (t : Token) : Prop :=
  t.kind.Admits t.lexeme.toList

/-! ## Texts that begin with digits -/

namespace Number.Decimal

/-- No word begins with a digit. -/
theorem readWord?_of_isDigit {c : Char} (h : c.isDigit = true) (cs : List Char) :
    readWord? (c :: cs) = none := by
  have hne (d : Char) (rest : List Char) (hd : d.isDigit = false) :
      String.ofList ((c :: cs).map Char.toLower) ≠ String.ofList (d :: rest) := by
    intro heq
    have hlist := String.ofList_injective heq
    rw [List.map_cons, Text.toLower_of_isDigit h] at hlist
    rw [(List.cons.inj hlist).1, hd] at h
    cases h
  have hinf : "inf" = String.ofList ['i', 'n', 'f'] := rfl
  have hinfinity : "infinity" = String.ofList ['i', 'n', 'f', 'i', 'n', 'i', 't', 'y'] := rfl
  have hnan : "nan" = String.ofList ['n', 'a', 'n'] := rfl
  simp only [readWord?, hinf, hinfinity, hnan, hne 'i' _ rfl, hne 'n' _ rfl, decide_false,
    Bool.or_self, Bool.false_eq_true, if_false]

/-- Digits before a hyphen are no number. -/
theorem read?_hyphen {ds : List Char} (hne : ds ≠ []) (hdigits : ∀ c ∈ ds, c.isDigit = true)
    (rest : List Char) : read? (ds ++ '-' :: rest) = none := by
  obtain ⟨c, cs, rfl⟩ := List.exists_cons_of_ne_nil hne
  have hc := hdigits c List.mem_cons_self
  have hunsigned : readUnsigned? (c :: cs ++ '-' :: rest) = none := by
    unfold readUnsigned?
    rw [List.takeWhile_append_of_pos hdigits, List.dropWhile_append_of_pos hdigits,
      List.takeWhile_cons_of_neg (by decide), List.dropWhile_cons_of_neg (by decide)]
    simp [readTail?]
  unfold read?
  split
  · next heq =>
    rw [(List.cons.inj heq).1] at hc
    exact absurd hc (by decide)
  · next heq =>
    rw [(List.cons.inj heq).1] at hc
    exact absurd hc (by decide)
  · dsimp only
    rw [hunsigned, List.cons_append, readWord?_of_isDigit hc]
    rfl

end Number.Decimal

/-! ## Texts between dollars -/

namespace Lexeme

/-- A text that was read up to two dollars ends there again, whatever follows. -/
theorem dollarless_of_dollarText? (cs : List Char) :
    ∀ {text : List Char}, dollarText? cs = some text → Dollarless text := by
  induction cs with
  | nil => intro text h; cases h
  | cons c rest ih =>
    intro text h
    unfold dollarText? at h
    split at h
    · obtain rfl := Option.some.inj h
      intro tail
      rfl
    · next hc =>
      obtain ⟨text', htext, rfl⟩ := Option.map_eq_some_iff.1 h
      intro tail
      rw [List.cons_append, dollarText?, if_neg, ih htext tail]
      · rfl
      · -- the next character is that of the text that was read
        intro hboth
        apply hc
        simp only [Bool.and_eq_true, decide_eq_true_eq] at hboth ⊢
        refine ⟨hboth.1, ?_⟩
        cases rest with
        | nil => cases htext
        | cons d rest' =>
          unfold dollarText? at htext
          split at htext
          · next hd =>
            simp only [Bool.and_eq_true, decide_eq_true_eq] at hd
            rw [hd.1]
            rfl
          · obtain ⟨text'', -, rfl⟩ := Option.map_eq_some_iff.1 htext
            exact hboth.2

theorem dollarless_of_not_mem {text : List Char} (h : '$' ∉ text) : Dollarless text := by
  intro rest
  induction text with
  | nil => rfl
  | cons c cs ih =>
    rw [List.mem_cons, not_or] at h
    rw [List.cons_append, dollarText?, if_neg, ih h.2]
    · rfl
    · simp [Ne.symm h.1]

/-! ## Numbers and dates -/

/-- A text that neither begins nor ends with a blank is left as it is. -/
theorem trim_of_ends {cs : List Char} (hhead : ∀ c ∈ cs.head?, Text.isBlank c = false)
    (hlast : ∀ c ∈ cs.getLast?, Text.isBlank c = false) : Text.trim cs = cs := by
  have hstart : ∀ {cs : List Char}, (∀ c ∈ cs.head?, Text.isBlank c = false) →
      Text.trimStart cs = cs := by
    intro cs h
    cases cs with
    | nil => rfl
    | cons c rest =>
      exact List.dropWhile_cons_of_neg (by rw [h c rfl]; exact Bool.false_ne_true)
  rw [Text.trim, hstart hhead, hstart (by rwa [List.head?_reverse]), List.reverse_reverse]

theorem trim_of_not_blank {cs : List Char} (h : ∀ c ∈ cs, Text.isBlank c = false) :
    Text.trim cs = cs :=
  trim_of_ends (fun c hc => h c (List.mem_of_mem_head? hc)) fun c hc =>
    h c (List.mem_of_getLast? hc)

/-- Digits, then perhaps a point and digits. -/
def IsNumeral (cs : List Char) : Prop :=
  ∃ whole fraction, (∀ c ∈ whole ++ fraction, c.isDigit = true) ∧ whole ≠ [] ∧
    (cs = whole ∧ fraction = [] ∨ cs = whole ++ '.' :: fraction)

theorem numeral_isNumeral {cs : List Char} {d : Char} {ds : List Char} (h : numeral cs = d :: ds)
    (hd : d.isDigit = true) : IsNumeral (d :: ds) := by
  have hwhole : ∀ c ∈ cs.takeWhile Char.isDigit, c.isDigit = true := fun c hc =>
    List.mem_takeWhile_imp hc
  unfold numeral at h
  split at h
  · next e rest heq =>
    dsimp only at h
    split at h
    · refine ⟨cs.takeWhile Char.isDigit, (e :: rest).takeWhile Char.isDigit, ?_, ?_, .inr h.symm⟩
      · intro c hc
        rcases List.mem_append.1 hc with hc | hc
        · exact hwhole c hc
        · exact List.mem_takeWhile_imp hc
      · intro hnil
        rw [hnil, List.nil_append] at h
        rw [← (List.cons.inj h).1] at hd
        exact absurd hd (by decide)
    · refine ⟨_, [], ?_, by rw [h]; simp, .inl ⟨h.symm, rfl⟩⟩
      rw [List.append_nil]
      exact hwhole
  · refine ⟨_, [], ?_, by rw [h]; simp, .inl ⟨h.symm, rfl⟩⟩
    rw [List.append_nil]
    exact hwhole

theorem IsNumeral.read {cs : List Char} (h : IsNumeral cs) :
    (Number.Decimal.readUnsigned? cs).isSome = true := by
  obtain ⟨whole, fraction, hdigits, hne, hcs⟩ := h
  have hwhole : ∀ c ∈ whole, c.isDigit = true := fun c hc => hdigits c (List.mem_append_left _ hc)
  have hfraction : ∀ c ∈ fraction, c.isDigit = true := fun c hc =>
    hdigits c (List.mem_append_right _ hc)
  unfold Number.Decimal.readUnsigned?
  rcases hcs with ⟨rfl, -⟩ | rfl
  · rw [List.takeWhile_eq_self_iff.2 hwhole, List.dropWhile_eq_nil_iff.2 hwhole]
    simp [hne, Number.Decimal.readTail?]
  · rw [List.takeWhile_append_of_pos hwhole, List.dropWhile_append_of_pos hwhole,
      List.takeWhile_cons_of_neg (by decide), List.dropWhile_cons_of_neg (by decide)]
    simp only [List.append_nil, List.dropWhile_eq_nil_iff.2 hfraction]
    simp [hne, Number.Decimal.readTail?]

/-- The characters of a numeral are digits and points. -/
theorem IsNumeral.chars {cs : List Char} (h : IsNumeral cs) :
    ∀ c ∈ cs, c.isDigit = true ∨ c = '.' := by
  obtain ⟨whole, fraction, hdigits, -, hcs⟩ := h
  intro c hc
  rcases hcs with ⟨rfl, -⟩ | rfl
  · exact .inl (hdigits c (List.mem_append_left _ hc))
  · rcases List.mem_append.1 hc with hc | hc
    · exact .inl (hdigits c (List.mem_append_left _ hc))
    · rcases List.mem_cons.1 hc with rfl | hc
      · exact .inr rfl
      · exact .inl (hdigits c (List.mem_append_right _ hc))

/-- A numeral reads as a number, with a sign or without. -/
theorem IsNumeral.read_signed {d : Char} {ds : List Char} (h : IsNumeral (d :: ds))
    (hd : d.isDigit = true) {sign : List Char} (hsign : sign = [] ∨ sign = ['-']) :
    (Number.Decimal.read? (sign ++ d :: ds)).isSome = true := by
  have hread := h.read
  unfold Number.Decimal.read?
  rcases hsign with rfl | rfl
  · rw [List.nil_append]
    split
    · next heq =>
      rw [(List.cons.inj heq).1] at hd
      exact absurd hd (by decide)
    · next heq =>
      rw [(List.cons.inj heq).1] at hd
      exact absurd hd (by decide)
    · simp [hread]
  · simp [hread]

/-- A number that stands alone is a numeral, after a hyphen or not. -/
theorem number?_shape {cs : List Char} {l : Lexeme} (h : number? cs = some l) :
    l.kind = .number ∧ ∃ sign d ds, l.text = sign ++ d :: ds ∧ (sign = [] ∨ sign = ['-']) ∧
      d.isDigit = true ∧ IsNumeral (d :: ds) := by
  unfold number? at h
  split at h
  next sign rest hsplit =>
  have hsign : sign = [] ∨ sign = ['-'] := by
    split at hsplit
    · exact .inr (congrArg Prod.fst hsplit).symm
    · exact .inl (congrArg Prod.fst hsplit).symm
  split at h
  · cases h
  · next d ds hnumeral =>
    split at h
    · next hd =>
      simp only [Bool.and_eq_true] at hd
      obtain rfl := Option.some.inj h
      exact ⟨rfl, sign, d, ds, rfl, hsign, hd.1, numeral_isNumeral hnumeral hd.1⟩
    · cases h

/-- A number that stands alone has no blanks around it. -/
theorem trim_of_number? {cs : List Char} {l : Lexeme} (h : number? cs = some l) :
    Text.trim l.text = l.text := by
  obtain ⟨-, sign, d, ds, htext, hsign, -, hshape⟩ := number?_shape h
  refine trim_of_not_blank fun c hc => ?_
  rw [htext] at hc
  rcases List.mem_append.1 hc with hc | hc
  · rcases hsign with rfl | rfl
    · cases hc
    · obtain rfl := List.mem_singleton.1 hc
      decide
  · rcases hshape.chars c hc with hc | rfl
    · exact (ordinary_of_isDigit hc).blank
    · decide

theorem number?_sound {cs : List Char} {l : Lexeme} (h : number? cs = some l) :
    l.kind.Admits l.text := by
  have htrim := trim_of_number? h
  obtain ⟨hkind, sign, d, ds, htext, hsign, hd, hshape⟩ := number?_shape h
  rw [hkind]
  refine ⟨?_, dollarless_of_not_mem fun hmem => ?_⟩
  · rw [dollarKind, if_pos]
    rw [htrim, htext]
    exact hshape.read_signed hd hsign
  · rw [htext] at hmem
    rcases List.mem_append.1 hmem with hmem | hmem
    · rcases hsign with rfl | rfl <;> simp at hmem
    · rcases hshape.chars '$' hmem with hc | hc <;> exact absurd hc (by decide)

theorem date?_sound {cs : List Char} {l : Lexeme} (h : date? cs = some l) :
    l.kind.Admits l.text := by
  unfold date? at h
  dsimp only at h
  split at h
  · next hdate =>
    simp only [Bool.and_eq_true] at hdate
    obtain rfl := Option.some.inj h
    obtain ⟨⟨hshape, -⟩, hmoment⟩ := hdate
    obtain ⟨a, b, c, d, e, f, g, i, htake, hdigits⟩ := hasDateShape_eq hshape
    have hchars : ∀ x ∈ cs.take 10, x.isDigit = true ∨ x = '-' := by
      rw [htake]
      intro x hx
      simp only [List.mem_cons, List.not_mem_nil, or_false] at hx hdigits
      rcases hx with h | h | h | h | h | h | h | h | h | h
      all_goals first
        | exact .inr h
        | exact .inl (hdigits x (by simp [h]))
    have hblank : ∀ x ∈ cs.take 10, Text.isBlank x = false := by
      intro x hx
      rcases hchars x hx with hx | rfl
      · exact (ordinary_of_isDigit hx).blank
      · decide
    refine ⟨?_, dollarless_of_not_mem fun hmem => ?_⟩
    · have hnumber : Number.Decimal.read? (Text.trim (cs.take 10)) = none := by
        rw [trim_of_not_blank hblank, htake]
        exact Number.Decimal.read?_hyphen (List.cons_ne_nil a [b, c, d])
          (fun x hx => hdigits x (List.mem_append_left [e, f, g, i] hx)) [e, f, '-', g, i]
      rw [dollarKind, if_neg (by rw [hnumber]; exact Bool.false_ne_true), if_pos hmoment]
    · rcases hchars '$' hmem with hc | hc <;> exact absurd hc (by decide)
  · cases h

end Lexeme

/-! ## Words -/

/-- The lower case of a text that begins with a digit begins with it. -/
theorem lowercase_of_isDigit {c : Char} (hc : c.isDigit = true) (cs : List Char) :
    (Text.lowercase (String.ofList (c :: cs))).toList.head? = some c := by
  have hbounds := Text.isDigit_bounds hc
  have hsigma : c ≠ 'Σ' := by
    rintro rfl
    exact absurd hc (by decide)
  have hchar : Text.lowerChar c = [c] := by
    rw [Text.lowerChar, if_pos (by omega), Text.toLower_of_isDigit hc]
  rw [Text.lowercase, String.toList_ofList, String.toList_ofList, Text.lowerAfter]
  simp only [if_neg hsigma, hchar]
  rfl

/-- No keyword begins with a digit. -/
theorem Keyword.isDigit_of_ofWord? {c : Char} {cs : List Char} {k : Keyword}
    (h : ofWord? (String.ofList (c :: cs)) = some k) : c.isDigit = false := by
  have hspellings : ∀ s ∈ spellings, s.1.toList.head?.all (fun c => !c.isDigit) = true := by
    decide +kernel
  cases hc : c.isDigit with
  | false => rfl
  | true =>
    have := hspellings _ (mem_of_lookup h)
    rw [lowercase_of_isDigit hc] at this
    simp [hc] at this

theorem Lexeme.word?_sound {c : Char} {cs : List Char} (hblank : Text.isBlank c = false)
    {l : Lexeme} (h : word? (c :: cs) = some l) : l.kind.Admits l.text := by
  rw [word?] at h
  split at h
  · next hstart =>
    obtain rfl := Option.some.inj h
    dsimp only
    split
    · next k hk =>
      have hdigit := Keyword.isDigit_of_ofWord? hk
      simp only [TokenKind.Admits, Keyword.isSpelled, hk, String.toList_ofList, hblank, hstart,
        hdigit]
      simp only [Bool.not_false, Bool.true_and, beq_self_eq_true, List.all_eq_true]
      exact fun d hd => List.mem_takeWhile_imp hd
    · trivial
  · cases h

/-! ## All rules -/

namespace Lexeme

theorem space?_sound {cs : List Char} {l : Lexeme} (h : space? cs = some l) :
    l.kind.Admits l.text := by
  unfold space? at h
  split at h
  · cases h
  · split at h
    · obtain rfl := Option.some.inj h
      trivial
    · cases h

theorem comment?_sound {cs : List Char} {l : Lexeme} (h : comment? cs = some l) :
    l.kind.Admits l.text := by
  unfold comment? at h
  split at h
  · obtain rfl := Option.some.inj h
    trivial
  · cases h

theorem mark?_sound {cs : List Char} {l : Lexeme} (h : mark? cs = some l) :
    l.kind.Admits l.text := by
  unfold mark? at h
  split at h
  case h_5 =>
    obtain ⟨k, hk, rfl⟩ := Option.map_eq_some_iff.1 h
    dsimp only at hk ⊢
    split at hk <;> cases hk <;> trivial
  case h_6 => cases h
  all_goals
    obtain rfl := Option.some.inj h
    trivial

theorem quoted?_sound {quote : Char} (kind : TokenKind) (hkind : ∀ text, kind.Admits text)
    {cs : List Char} {l : Lexeme} (h : quoted? quote kind cs = some l) : l.kind.Admits l.text := by
  unfold quoted? at h
  split at h
  · cases h
  · split at h
    · obtain ⟨found, -, rfl⟩ := Option.map_eq_some_iff.1 h
      exact hkind _
    · cases h

theorem dollar?_sound {cs : List Char} {l : Lexeme} (h : dollar? cs = some l) :
    l.kind.Admits l.text := by
  unfold dollar? at h
  split at h
  · next rest =>
    obtain ⟨text, htext, rfl⟩ := Option.map_eq_some_iff.1 h
    have hend := dollarless_of_dollarText? rest htext
    dsimp only
    cases hkind : dollarKind text with
    | number => exact ⟨hkind, hend⟩
    | date => exact ⟨hkind, hend⟩
    | now | keyword k =>
      exfalso
      revert hkind
      unfold dollarKind
      split
      · simp
      · split <;> simp
    | _ => trivial
  · cases h

theorem now?_sound {cs : List Char} {l : Lexeme} (h : now? cs = some l) :
    l.kind.Admits l.text := by
  unfold now? at h
  split at h
  · next hnow =>
    obtain rfl := Option.some.inj h
    exact hnow
  · cases h

theorem first?_sound {c : Char} {cs : List Char} {l : Lexeme} (h : first? (c :: cs) = some l) :
    l.kind.Admits l.text := by
  unfold first? rules at h
  rw [List.findSome?_cons] at h
  split at h
  · next l' hspace =>
    obtain rfl := Option.some.inj h
    exact space?_sound hspace
  · next hspace =>
    -- where no space was found, the character is no blank
    have hblank : Text.isBlank c = false := by
      unfold space? at hspace
      split at hspace
      · next heq => cases heq
      · next heq =>
        obtain ⟨rfl, rfl⟩ := List.cons.inj heq
        split at hspace
        · cases hspace
        · next hc => simpa using hc
    obtain ⟨rule, hrule, hl⟩ := List.exists_of_findSome?_eq_some h
    simp only [List.mem_cons, List.not_mem_nil, or_false] at hrule
    rcases hrule with rfl | rfl | rfl | rfl | rfl | rfl | rfl | rfl | rfl | rfl
    · exact comment?_sound hl
    · exact mark?_sound hl
    · exact quoted?_sound .string (fun _ => trivial) hl
    · exact quoted?_sound .quotedIdent (fun _ => trivial) hl
    · exact quoted?_sound .quotedIdent (fun _ => trivial) hl
    · exact dollar?_sound hl
    · exact now?_sound hl
    · exact date?_sound hl
    · exact number?_sound hl
    · exact word?_sound hblank hl

end Lexeme

theorem Token.scanFrom_sound (position : Nat) (cs : List Char) :
    ∀ {tokens : List Token}, scanFrom position cs = .ok tokens → ∀ t ∈ tokens, t.Sound := by
  fun_induction scanFrom position cs with
  | case1 position =>
    intro tokens h
    obtain rfl := Except.ok.inj h
    simp
  | case2 position c rest => intro tokens h; cases h
  | case3 position c rest l hfirst ih =>
    intro tokens h
    obtain ⟨others, hothers, h⟩ := bind_eq_ok.1 h
    obtain rfl := Except.ok.inj h
    intro t ht
    rcases List.mem_cons.1 ht with rfl | ht
    · rw [Sound, String.toList_ofList]
      exact Lexeme.first?_sound hfirst
    · exact ih hothers t ht

/-- Every token of every text is sound, those between the spaces too. -/
theorem Token.scan_sound {text : String} {tokens : List Token} (h : scan text = .ok tokens) :
    ∀ t ∈ withoutSpaces tokens, t.Sound :=
  fun t ht => scanFrom_sound 0 text.toList h t (List.mem_filter.1 ht).1

end Tabula
