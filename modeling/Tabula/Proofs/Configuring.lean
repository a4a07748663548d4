import Tabula.Config
import Tabula.Proofs.Decimals
import Tabula.Proofs.Lookahead

/-!
# Configurations that are written and read back

The text of a configuration is an object with a field on each line, of which any may be left out.

* `Json.readString_plain`, `Json.readNumber_toDigits`: texts without escapes and numbers without a
  sign are read as they are written.
* `Json.readFields_lines`, `Json.read?_lines`: so is an object with a field on each line.
* `Config.ofJson?_entries`: an object with some of the fields is the configuration with the others
  at their defaults.
* `Config.text_eq`: what is written is the text of all fields, so it is read back, with any fields
  left out, unless a size is zero.
-/

namespace Tabula

/-! ## Algorithm -/

/-- A value and the characters that it is written as, up to a comma or the end of a line. -/
def Json.Shown (v : Json) (cs : List Char) : Prop :=
  ∀ fuel rest, rest.head? = some ',' ∨ rest.head? = some '\n' →
    Json.readValue (fuel + 1) (cs ++ rest) = some (v, rest)

/-- A character that stands for itself between quotes. -/
def Json.Plain (c : Char) : Prop :=
  c ≠ '"' ∧ c ≠ '\\' ∧ ¬c < ' '

instance (c : Char) : Decidable (Json.Plain c) :=
  inferInstanceAs (Decidable (_ ∧ _ ∧ _))

/-- A field on a line of its own. -/
def Json.fieldLine (key : String) (shown : List Char) : List Char :=
  '\n' :: ' ' :: ' ' :: '"' :: (key.toList ++ '"' :: ':' :: ' ' :: shown)

/-- The other fields of an object of which one was read. -/
def Json.readOthers (fuel : Nat) (field : List Nat × Json) (cs : List Char) :
    Option (List (List Nat × Json) × List Char) :=
  match skipBlanks cs with
  | ',' :: rest => do
    let (others, rest) ← readFields fuel rest
    return (field :: others, rest)
  | '\x7d' :: rest => return ([field], rest)
  | _ => none

namespace Config

/-- The fields of a configuration. -/
inductive Field where
  | shutdown
  | acceptBacklog
  | channelCapacity
  | logStatements
deriving DecidableEq

namespace Field

/-- The fields in the order in which they are written. -/
def all : List Field :=
  [.shutdown, .acceptBacklog, .channelCapacity, .logStatements]

/-- The name of a field in a text. -/
def key : Field → String
  | .shutdown => "shutdown"
  | .acceptBacklog => "accept_backlog"
  | .channelCapacity => "channel_capacity"
  | .logStatements => "log_statements"

/-- What a field of a configuration is written as. -/
def shown (c : Config) : Field → String
  | .shutdown => "\"" ++ c.shutdown.name ++ "\""
  | .acceptBacklog => toString c.acceptBacklog
  | .channelCapacity => toString c.channelCapacity
  | .logStatements => if c.logStatements then "true" else "false"

/-- What a field of a configuration is as a value. -/
def value (c : Config) : Field → Json
  | .shutdown => .string (Json.points c.shutdown.name)
  | .acceptBacklog => .number (Number.toDigits c.acceptBacklog)
  | .channelCapacity => .number (Number.toDigits c.channelCapacity)
  | .logStatements => .bool c.logStatements

end Field

/-- The text of some fields of a configuration: an object with a field on each line. -/
def textOf (kept : List Field) (c : Config) : String :=
  if kept.isEmpty then "\x7b\x7d"
  else
    "\x7b" ++ ",".intercalate (kept.map fun f => "\n  \"" ++ f.key ++ "\": " ++ f.shown c) ++
      "\n\x7d"

/-- The text of a configuration without some of its fields. -/
def textWithout (removed : Field → Bool) (c : Config) : String :=
  c.textOf (Field.all.filter fun f => !removed f)

/-- The configuration with some of its fields at their defaults. -/
def reset (removed : Field → Bool) (c : Config) : Config where
  shutdown := if removed .shutdown then ({} : Config).shutdown else c.shutdown
  acceptBacklog := if removed .acceptBacklog then ({} : Config).acceptBacklog else c.acceptBacklog
  channelCapacity :=
    if removed .channelCapacity then ({} : Config).channelCapacity else c.channelCapacity
  logStatements := if removed .logStatements then ({} : Config).logStatements else c.logStatements

end Config

/-! ## Lemmas -/

namespace Json

/-! ### Values -/

theorem skipBlanks_of_not_blank {c : Char} (h : c ∉ [' ', '\n', '\t', '\r']) (cs : List Char) :
    skipBlanks (c :: cs) = c :: cs := by
  simp only [List.mem_cons, List.not_mem_nil, or_false, not_or] at h
  exact List.dropWhile_cons_of_neg (by simp [h])

theorem skipBlanks_blank {c : Char} (h : c ∈ [' ', '\n', '\t', '\r']) (cs : List Char) :
    skipBlanks (c :: cs) = skipBlanks cs := by
  simp only [List.mem_cons, List.not_mem_nil, or_false] at h
  exact List.dropWhile_cons_of_pos (by rcases h with rfl | rfl | rfl | rfl <;> rfl)

/-- A value is read as if it began after a blank. -/
theorem readValue_space (fuel : Nat) (cs : List Char) :
    readValue (fuel + 1) (' ' :: cs) = readValue (fuel + 1) cs := by
  rw [readValue, readValue, skipBlanks_blank (by decide)]

theorem forall_plain {cs : List Char} (h : (cs.all fun c => decide (Plain c)) = true) :
    ∀ c ∈ cs, Plain c :=
  fun c hc => of_decide_eq_true (List.all_eq_true.1 h c hc)

/-- Characters that stand for themselves are read up to the closing quote. -/
theorem readString_plain {cs : List Char} (h : ∀ c ∈ cs, Plain c) (rest : List Char) :
    readString (cs ++ '"' :: rest) = some (cs.map (·.toNat), rest) := by
  induction cs with
  | nil => rfl
  | cons c cs ih =>
    obtain ⟨⟨hquote, hescape, hcontrol⟩, hcs⟩ := List.forall_mem_cons.1 h
    rw [List.cons_append, readString, if_neg hcontrol, ih hcs]
    · rfl
    · exact hquote
    · exact fun _ _ _ _ _ heq => absurd heq hescape
    · exact fun _ _ heq => absurd heq hescape

theorem string_shown {s : String} (h : ∀ c ∈ s.toList, Plain c) :
    Shown (.string (points s)) ('"' :: (s.toList ++ ['"'])) := by
  intro fuel rest _
  have hchars : '"' :: (s.toList ++ ['"']) ++ rest = '"' :: (s.toList ++ '"' :: rest) := by simp
  rw [hchars, readValue, skipBlanks_of_not_blank (by decide)]
  show (readString (s.toList ++ '"' :: rest) >>= fun p => some (string p.1, p.2)) = _
  rw [readString_plain h]
  rfl

theorem bool_shown (b : Bool) : Shown (.bool b) (if b then "true" else "false").toList := by
  intro fuel rest _
  cases b with
  | true =>
    show readValue (fuel + 1) ('t' :: 'r' :: 'u' :: 'e' :: rest) = _
    rw [readValue, skipBlanks_of_not_blank (by decide)]
    rfl
  | false =>
    show readValue (fuel + 1) ('f' :: 'a' :: 'l' :: 's' :: 'e' :: rest) = _
    rw [readValue, skipBlanks_of_not_blank (by decide)]
    rfl

/-- No number but zero is written with a zero before other digits. -/
theorem toDigits_head (n : Nat) : ∀ ds, Number.toDigits n = '0' :: ds → ds = [] := by
  induction n using Nat.strongRecOn with
  | ind n ih =>
    intro ds h
    unfold Number.toDigits at h ih
    rw [Nat.toDigits_eq_if (by decide)] at h
    split at h
    · exact (List.cons.inj h).2.symm
    · next hlarge =>
      obtain ⟨c, cs, hlist⟩ : ∃ c cs, Nat.toDigits 10 (n / 10) = c :: cs :=
        List.exists_cons_of_ne_nil Nat.toDigits_ne_nil
      rw [hlist, List.cons_append] at h
      obtain ⟨rfl, -⟩ := List.cons.inj h
      -- what is before the last digit would be zero
      obtain rfl := ih (n / 10) (by omega) cs hlist
      have hvalue := Number.Decimal.ofDigits_toDigits (n / 10)
      rw [Number.toDigits, hlist] at hvalue
      have : n / 10 = 0 := hvalue.symm
      omega

theorem readDigits_append {ds rest : List Char} (hne : ds ≠ [])
    (hdigits : ∀ c ∈ ds, c.isDigit = true) (hrest : ∀ c ∈ rest.head?, c.isDigit = false) :
    readDigits (ds ++ rest) = some (ds, rest) := by
  have hspan : (ds ++ rest).span Char.isDigit = (ds, rest) := by
    rw [List.span_eq_takeWhile_dropWhile, takeWhile_append_of_head hrest,
      dropWhile_append_of_head hrest, List.takeWhile_eq_self_iff.2 hdigits,
      List.dropWhile_eq_nil_iff.2 hdigits, List.nil_append]
  obtain ⟨d, others, rfl⟩ := List.exists_cons_of_ne_nil hne
  rw [readDigits, hspan]

theorem readWhole_toDigits (n : Nat) {rest : List Char}
    (hrest : ∀ c ∈ rest.head?, c.isDigit = false) :
    readWhole (Number.toDigits n ++ rest) = some (Number.toDigits n, rest) := by
  have hdigits : ∀ c ∈ Number.toDigits n, c.isDigit = true := fun c hc =>
    Number.Decimal.isDigit_of_mem_toDigits hc
  obtain ⟨d, ds, hlist⟩ : ∃ d ds, Number.toDigits n = d :: ds :=
    List.exists_cons_of_ne_nil Nat.toDigits_ne_nil
  have hzero := toDigits_head n
  rw [hlist] at hdigits hzero ⊢
  by_cases hd : d = '0'
  · subst hd
    obtain rfl := hzero ds rfl
    rw [List.singleton_append, readWhole, if_neg]
    cases rest with
    | nil => simp
    | cons c others => simp [hrest c rfl]
  · rw [List.cons_append, readWhole, ← List.cons_append,
      readDigits_append (List.cons_ne_nil d ds) hdigits hrest]
    exact fun _ heq => hd (List.cons.inj heq).1

/-- A number that is written as its digits is read up to a comma or the end of the line. -/
theorem number_shown (n : Nat) : Shown (.number (Number.toDigits n)) (Number.toDigits n) := by
  intro fuel rest hrest
  obtain ⟨c, others, rfl, hc⟩ : ∃ c others, rest = c :: others ∧ (c = ',' ∨ c = '\n') := by
    cases rest with
    | nil => simp at hrest
    | cons c others => exact ⟨c, others, rfl, by simpa using hrest⟩
  have hwhole : readWhole (Number.toDigits n ++ c :: others) =
      some (Number.toDigits n, c :: others) := by
    refine readWhole_toDigits n fun d hd => ?_
    obtain rfl := Option.some.inj hd
    rcases hc with rfl | rfl <;> rfl
  obtain ⟨d, ds, hlist⟩ : ∃ d ds, Number.toDigits n = d :: ds :=
    List.exists_cons_of_ne_nil Nat.toDigits_ne_nil
  have hd : d.isDigit = true :=
    Number.Decimal.isDigit_of_mem_toDigits (n := n) (hlist ▸ List.mem_cons_self)
  rw [hlist] at hwhole ⊢
  have hnumber : readNumber (d :: ds ++ c :: others) = some (d :: ds, c :: others) := by
    rw [readNumber, hwhole]
    · rcases hc with rfl | rfl
      · show some ([] ++ (d :: ds) ++ [] ++ [], _) = _
        simp
      · show some ([] ++ (d :: ds) ++ [] ++ [], _) = _
        simp
    · intro rest heq
      obtain rfl := (List.cons.inj heq).1
      cases hd
  have hblank : d ∉ [' ', '\n', '\t', '\r'] := by
    intro hmem
    simp only [List.mem_cons, List.not_mem_nil, or_false] at hmem
    rcases hmem with rfl | rfl | rfl | rfl <;> cases hd
  rw [readValue, List.cons_append, skipBlanks_of_not_blank hblank]
  -- a digit begins nothing but a number
  split
  case h_7 =>
    rw [← List.cons_append, hnumber]
    rfl
  all_goals
    next heq =>
      obtain rfl := (List.cons.inj heq).1
      cases hd

/-! ### Fields -/

theorem readOthers_comma (fuel : Nat) (field : List Nat × Json) (rest : List Char) :
    readOthers fuel field (',' :: rest) =
      (readFields fuel rest).map fun p => (field :: p.1, p.2) := by
  rw [readOthers, skipBlanks_of_not_blank (by decide)]
  show (readFields fuel rest >>= fun p => some (field :: p.1, p.2)) = _
  cases readFields fuel rest <;> rfl

theorem readOthers_brace (fuel : Nat) (field : List Nat × Json) (rest : List Char) :
    readOthers fuel field ('\n' :: '\x7d' :: rest) = some ([field], rest) := by
  rw [readOthers, skipBlanks_blank (by decide), skipBlanks_of_not_blank (by decide)]
  rfl

/-- A field on a line of its own is read, and then the others. -/
theorem readFields_line {key : String} {value : Json} {written tail : List Char}
    (hkey : ∀ c ∈ key.toList, Plain c) (hvalue : Shown value written)
    (htail : tail.head? = some ',' ∨ tail.head? = some '\n') (fuel : Nat) :
    readFields (fuel + 2) (fieldLine key written ++ tail) =
      readOthers (fuel + 1) (points key, value) tail := by
  have hchars : fieldLine key written ++ tail =
      '\n' :: ' ' :: ' ' :: '"' :: (key.toList ++ '"' :: ':' :: ' ' :: (written ++ tail)) := by
    simp [fieldLine]
  have hcolon : skipBlanks (':' :: ' ' :: (written ++ tail)) = ':' :: ' ' :: (written ++ tail) :=
    skipBlanks_of_not_blank (by decide) _
  rw [hchars, readFields, skipBlanks_blank (by decide), skipBlanks_blank (by decide),
    skipBlanks_blank (by decide), skipBlanks_of_not_blank (by decide)]
  show readString (key.toList ++ '"' :: ':' :: ' ' :: (written ++ tail)) >>= _ = _
  rw [readString_plain hkey, Option.bind_eq_bind, Option.bind_some]
  dsimp only
  rw [hcolon]
  show readValue (fuel + 1) (' ' :: (written ++ tail)) >>= _ = _
  rw [readValue_space, hvalue fuel tail htail, Option.bind_eq_bind, Option.bind_some]
  rfl

/-- Fields on lines of their own are read up to the closing brace. -/
theorem readFields_lines (fields : List (String × Json × List Char)) (hne : fields ≠ [])
    (hfields : ∀ f ∈ fields, (∀ c ∈ f.1.toList, Plain c) ∧ Shown f.2.1 f.2.2) (rest : List Char) :
    ∀ fuel, fields.length ≤ fuel →
      readFields (fuel + 1) ([','].intercalate (fields.map fun f => fieldLine f.1 f.2.2) ++
        '\n' :: '\x7d' :: rest) = some (fields.map fun f => (points f.1, f.2.1), rest) := by
  induction fields with
  | nil => exact absurd rfl hne
  | cons f fields ih =>
    obtain ⟨key, value, written⟩ := f
    obtain ⟨⟨hkey, hvalue⟩, hothers⟩ := List.forall_mem_cons.1 hfields
    intro fuel hfuel
    obtain ⟨fuel, rfl⟩ : ∃ n, fuel = n + 1 := ⟨fuel - 1, by rw [List.length_cons] at hfuel; omega⟩
    cases fields with
    | nil =>
      rw [List.map_singleton, List.intercalate_singleton,
        readFields_line hkey hvalue (.inr rfl), readOthers_brace]
      rfl
    | cons next fields =>
      have hnext := ih (List.cons_ne_nil _ _) hothers fuel (Nat.le_of_succ_le_succ hfuel)
      rw [List.map_cons] at hnext ⊢
      rw [List.map_cons, List.intercalate_cons_cons, List.append_assoc, List.append_assoc,
        readFields_line hkey hvalue (.inl rfl), List.singleton_append, readOthers_comma, hnext]
      rfl

theorem length_le_intercalate {ls : List (List Char)} (h : ∀ l ∈ ls, l ≠ []) :
    ls.length ≤ ([','].intercalate ls).length := by
  induction ls with
  | nil => exact Nat.zero_le _
  | cons l ls ih =>
    obtain ⟨hl, hls⟩ := List.forall_mem_cons.1 h
    have hpos := List.length_pos_iff.2 hl
    have hrest := ih hls
    cases ls with
    | nil =>
      rw [List.intercalate_singleton]
      exact hpos
    | cons next ls =>
      rw [List.intercalate_cons_cons, List.length_append, List.length_append, List.length_cons,
        List.length_singleton]
      omega

/-- An object whose fields are read is read. -/
theorem read?_fields {cs : List Char} {fields : List (List Nat × Json)}
    (h : readFields (2 * cs.length + 1 + 1) cs = some (fields, [])) :
    read? ('\x7b' :: cs) = some (.object fields) := by
  obtain ⟨others, hskip⟩ : ∃ others, skipBlanks cs = '"' :: others := by
    rw [readFields] at h
    split at h
    · next others hskip => exact ⟨others, hskip⟩
    · cases h
  have hvalue : readValue (2 * cs.length + 2 + 1) ('\x7b' :: cs) = some (.object fields, []) := by
    have hagain : readFields (2 * cs.length + 1 + 1) ('"' :: others) = some (fields, []) := by
      rw [readFields, hskip] at h
      rw [readFields, skipBlanks_of_not_blank (by decide)]
      exact h
    rw [readValue, skipBlanks_of_not_blank (by decide)]
    simp only [hskip]
    show (readFields (2 * cs.length + 2) ('"' :: others) >>= fun p => some (object p.1, p.2)) = _
    rw [hagain]
    rfl
  rw [read?, List.length_cons, show 2 * (cs.length + 1) + 1 = 2 * cs.length + 2 + 1 by omega, hvalue]
  rfl

/-- An object with its fields on lines of their own is read as it is written. -/
theorem read?_lines (fields : List (String × Json × List Char)) (hne : fields ≠ [])
    (hfields : ∀ f ∈ fields, (∀ c ∈ f.1.toList, Plain c) ∧ Shown f.2.1 f.2.2) :
    read? ('\x7b' :: ([','].intercalate (fields.map fun f => fieldLine f.1 f.2.2) ++
      ['\n', '\x7d'])) = some (.object (fields.map fun f => (points f.1, f.2.1))) := by
  have hlines : ∀ l ∈ fields.map fun f => fieldLine f.1 f.2.2, l ≠ [] := by
    intro l hl
    obtain ⟨f, -, rfl⟩ := List.mem_map.1 hl
    exact List.cons_ne_nil _ _
  have hlength := length_le_intercalate hlines
  refine read?_fields (readFields_lines fields hne hfields [] _ ?_)
  rw [List.length_map] at hlength
  rw [List.length_append]
  omega

end Json

namespace Config

/-! ### Fields of a configuration -/

theorem Field.key_inj {f g : Field} : Json.points f.key = Json.points g.key ↔ f = g := by
  cases f <;> cases g <;> decide

theorem Field.key_plain (f : Field) : ∀ c ∈ f.key.toList, Json.Plain c :=
  Json.forall_plain (by cases f <;> decide)

theorem Field.key_isText (f : Field) : Json.isText (Json.points f.key) = true := by
  cases f <;> decide

theorem Field.value_shown (c : Config) (f : Field) :
    Json.Shown (f.value c) (f.shown c).toList := by
  cases f with
  | shutdown =>
    have hplain : ∀ d ∈ c.shutdown.name.toList, Json.Plain d :=
      Json.forall_plain (by cases c.shutdown <;> decide)
    have hshown := Json.string_shown hplain
    rwa [show '"' :: (c.shutdown.name.toList ++ ['"']) = (shown c .shutdown).toList by
      simp [shown]] at hshown
  | acceptBacklog =>
    rw [shown, Nat.toString_eq_repr, Nat.toList_repr]
    exact Json.number_shown _
  | channelCapacity =>
    rw [shown, Nat.toString_eq_repr, Nat.toList_repr]
    exact Json.number_shown _
  | logStatements => exact Json.bool_shown _

/-- The text of some fields is read as the object of their values. -/
theorem read?_textOf (c : Config) (kept : List Field) :
    Json.read? (c.textOf kept).toList =
      some (.object (kept.map fun f => (Json.points f.key, f.value c))) := by
  cases kept with
  | nil =>
    have hchars : (c.textOf []).toList = ['\x7b', '\x7d'] := by simp [textOf]
    rw [hchars]
    rfl
  | cons f fields =>
    have hlines := Json.read?_lines
      ((f :: fields).map fun f => (f.key, f.value c, (f.shown c).toList)) (List.cons_ne_nil _ _)
      fun g hg => by
        obtain ⟨g, -, rfl⟩ := List.mem_map.1 hg
        exact ⟨g.key_plain, g.value_shown c⟩
    rw [List.map_map, List.map_map] at hlines
    have hline (f : Field) : ("\n  \"" ++ f.key ++ "\": " ++ f.shown c).toList =
        Json.fieldLine f.key (f.shown c).toList := by
      simp [Json.fieldLine]
    have hchars : (c.textOf (f :: fields)).toList = '\x7b' :: ([','].intercalate
        ((f :: fields).map fun f => Json.fieldLine f.key (f.shown c).toList) ++ ['\n', '\x7d']) := by
      rw [textOf, if_neg (by simp), String.toList_append, String.toList_append,
        String.toList_intercalate, List.map_map]
      simp only [← hline]
      rfl
    rw [hchars]
    exact hlines

/-- A field is found unless it was removed. -/
theorem field_entries {α : Type} (c : Config) (removed : Field → Bool) (f : Field)
    (read : Json → Option α) (absent : α) :
    field ((Field.all.filter fun f => !removed f).map fun f => (Json.points f.key, f.value c))
      f.key read absent = if removed f then some absent else read (f.value c) := by
  have hkey : ((fun entry : List Nat × Json => entry.1 == Json.points f.key) ∘
      fun g : Field => (Json.points g.key, g.value c)) = fun g => g == f := by
    funext g
    rw [Bool.eq_iff_iff]
    simp [Field.key_inj]
  have hkept : (Field.all.filter fun f => !removed f).Nodup :=
    List.Nodup.filter _ (by decide : Field.all.Nodup)
  have hall : f ∈ Field.all := by cases f <;> decide
  rw [field, List.filter_map, hkey, List.filter_beq]
  cases hf : removed f with
  | true =>
    rw [List.count_eq_zero_of_not_mem (by simp [hf])]
    rfl
  | false =>
    rw [List.count_eq_one_of_mem hkept (by simp [hall, hf])]
    rfl

theorem readShutdown_name (policy : Shutdown) :
    readShutdown (.string (Json.points policy.name)) = some policy := by
  cases policy <;> decide

theorem readSize_toDigits {n : Nat} (hn : n < UInt64.size) :
    readSize (.number (Number.toDigits n)) = some n := by
  have hall : (Number.toDigits n).all Char.isDigit = true :=
    List.all_eq_true.2 fun c hc => Number.Decimal.isDigit_of_mem_toDigits hc
  rw [readSize, Number.Decimal.ofDigits_toDigits, hall, Bool.true_and, if_pos (by simpa using hn)]

section

variable {c : Config} (hbacklog : c.acceptBacklog < UInt64.size)
  (hcapacity : c.channelCapacity < UInt64.size)
include hbacklog hcapacity

/-- An object without some of the fields is the configuration with these at their defaults. -/
theorem ofJson?_entries (removed : Field → Bool) :
    ofJson? (.object ((Field.all.filter fun f => !removed f).map fun f =>
      (Json.points f.key, f.value c))) = some (c.reset removed) := by
  have htext : (((Field.all.filter fun f => !removed f).map fun f =>
      (Json.points f.key, f.value c)).all fun entry => Json.isText entry.1) = true := by
    rw [List.all_map, List.all_eq_true]
    exact fun f _ => f.key_isText
  have hshutdown := field_entries c removed .shutdown readShutdown .detach
  have hback := field_entries c removed .acceptBacklog readSize 16
  have hcap := field_entries c removed .channelCapacity readSize 64
  have hlog := field_entries c removed .logStatements readFlag true
  rw [Field.value, readShutdown_name, ← apply_ite some] at hshutdown
  rw [Field.value, readSize_toDigits hbacklog, ← apply_ite some] at hback
  rw [Field.value, readSize_toDigits hcapacity, ← apply_ite some] at hcap
  rw [Field.value, readFlag, ← apply_ite some] at hlog
  rw [show Field.key .shutdown = "shutdown" from rfl] at hshutdown
  rw [show Field.key .acceptBacklog = "accept_backlog" from rfl] at hback
  rw [show Field.key .channelCapacity = "channel_capacity" from rfl] at hcap
  rw [show Field.key .logStatements = "log_statements" from rfl] at hlog
  rw [ofJson?, if_pos htext, hshutdown, hback, hcap, hlog]
  rfl

/-- A configuration that is written without some fields is read with these at their defaults, and
then its sizes are looked at. -/
theorem load_textWithout (removed : Field → Bool) :
    load (c.textWithout removed).toList =
      (c.reset removed).validate.map fun _ => c.reset removed := by
  have hread : read? (c.textWithout removed).toList = some (c.reset removed) := by
    rw [read?, textWithout, read?_textOf, Option.bind_eq_bind, Option.bind_some,
      ofJson?_entries hbacklog hcapacity]
  rw [load, hread]
  dsimp only
  cases (c.reset removed).validate <;> rfl

end

/-- Lines between an opening and a closing text, with what stands before and after each value in one
piece. -/
theorem lines_eq (opening closing separator quote before after key₁ key₂ key₃ key₄ a b c d : String)
    {text₁ text₂ text₃ text₄ : String}
    (h₁ : text₁ = opening ++ (before ++ (key₁ ++ (after ++ quote))))
    (h₂ : text₂ = quote ++ (separator ++ (before ++ (key₂ ++ after))))
    (h₃ : text₃ = separator ++ (before ++ (key₃ ++ after)))
    (h₄ : text₄ = separator ++ (before ++ (key₄ ++ after))) :
    text₁ ++ a ++ text₂ ++ b ++ text₃ ++ c ++ text₄ ++ d ++ closing =
      opening ++ separator.intercalate [before ++ key₁ ++ after ++ (quote ++ a ++ quote),
        before ++ key₂ ++ after ++ b, before ++ key₃ ++ after ++ c,
        before ++ key₄ ++ after ++ d] ++ closing := by
  subst h₁ h₂ h₃ h₄
  simp only [String.intercalate_cons_cons, String.intercalate_singleton, String.append_assoc]

/-- What is written is the text of all fields. -/
theorem text_eq (c : Config) : c.text = c.textWithout fun _ => false :=
  lines_eq "\x7b" "\n\x7d" "," "\"" "\n  \"" "\": " "shutdown" "accept_backlog"
    "channel_capacity" "log_statements" _ _ _ _ (by decide) (by decide) (by decide) (by decide)

theorem reset_none (c : Config) : (c.reset fun _ => false) = c := rfl

theorem validate_eq_ok {c : Config} (hbacklog : c.acceptBacklog ≠ 0)
    (hcapacity : c.channelCapacity ≠ 0) : c.validate = .ok () := by
  rw [validate, if_neg hbacklog, if_neg hcapacity]

end Config

/-! ## Top theorem -/

/-- A configuration with sizes of 64 bits that is written and read back is the same, and with any
fields left out it is the same but for these, which are at their defaults, if no size is zero.  If
one is, the text is refused, and the fault names the first that is. -/
theorem Config.load_written {c : Config} (hbacklog : c.acceptBacklog < UInt64.size)
    (hcapacity : c.channelCapacity < UInt64.size) :
    (c.acceptBacklog ≠ 0 → c.channelCapacity ≠ 0 →
      load c.text.toList = .ok c ∧
        ∀ removed : Field → Bool, load (c.textWithout removed).toList = .ok (c.reset removed)) ∧
    (c.acceptBacklog = 0 ∨ c.channelCapacity = 0 →
      load c.text.toList = .error (.configuration
        ((if c.acceptBacklog = 0 then "accept_backlog" else "channel_capacity") ++
          " must be at least 1"))) := by
  have hwithout := load_textWithout hbacklog hcapacity
  have hwhole : load c.text.toList = c.validate.map fun _ => c := by
    rw [text_eq, hwithout, reset_none]
  refine ⟨fun hb hc => ⟨?_, fun removed => ?_⟩, fun hzero => ?_⟩
  · rw [hwhole, validate_eq_ok hb hc]
    rfl
  · have hvalid : (c.reset removed).validate = .ok () := by
      -- the defaults are not zero either
      refine validate_eq_ok ?_ ?_
      · show (if removed .acceptBacklog then 16 else c.acceptBacklog) ≠ 0
        split
        · decide
        · exact hb
      · show (if removed .channelCapacity then 64 else c.channelCapacity) ≠ 0
        split
        · decide
        · exact hc
    rw [hwithout, hvalid]
    rfl
  · rw [hwhole, validate]
    by_cases hb : c.acceptBacklog = 0
    · rw [if_pos hb, if_pos hb]
      rfl
    · rw [if_neg hb, if_pos (hzero.resolve_left hb), if_neg hb]
      rfl

/-- The largest sizes are read back, also without a line of the text; without connections that may
wait the text is refused. -/
theorem Config.load_written_of_limits :
    let largest : Config := ⟨.drain, UInt64.size - 1, UInt64.size - 1, false⟩
    let removed : Field → Bool := fun f => decide (f = .acceptBacklog)
    load largest.text.toList = .ok largest ∧
      load (largest.textWithout removed).toList =
        .ok ⟨.drain, 16, UInt64.size - 1, false⟩ ∧
      load ({ largest with acceptBacklog := 0 } : Config).text.toList =
        .error (.configuration "accept_backlog must be at least 1") := by
  intro largest removed
  obtain ⟨hback, hwithout⟩ := (load_written (c := largest) (by decide) (by decide)).1 (by decide)
    (by decide)
  exact ⟨hback, hwithout removed,
    (load_written (c := { largest with acceptBacklog := 0 }) (by decide) (by decide)).2 (.inl rfl)⟩

end Tabula
