import DockerSim.Proofs.Blanks
import DockerSim.Proofs.Yaml.Reading

/-!
# Lines that hold an entry

How an entry is written, said without the reader (`Entry`): a key, plain or between quotes, a colon,
and what is behind it. An entry stands on a line of its own or behind the dash of an item
(`EntryLine`); either way it has a column, which is that of its key, and it goes into a mapping in
that column (`EntryLine.head?_add`).
-/

namespace DockerSim

namespace Yaml

open Chars

/-! ## How an entry is written -/

/-- How an entry is written: a key, between quotes or plain, a colon, and what is behind it. A plain
key ends at the first colon with a blank or nothing behind it. -/
inductive Entry : List Char → String → List Char → Prop
  | quoted {q : Char} {key after : List Char} (mark : isQuoteMark q = true) (free : q ∉ key)
      (apart : after.head?.all isBlank = true) :
    Entry (q :: (key ++ q :: ':' :: after)) (.ofList key) after
  | plain {key after : List Char} (bare : isQuoted key = false) (named : trim key ≠ [])
      (free : ∀ front c behind, key = front ++ ':' :: c :: behind → isAsciiBlank c = false)
      (apart : after.head?.all isAsciiBlank = true) :
    Entry (key ++ ':' :: after) (.ofList (trim key)) after

variable {text after key : List Char} {name : String}

theorem cutColon_append (free : ∀ front c behind, key = front ++ ':' :: c :: behind →
    isAsciiBlank c = false) (apart : after.head?.all isAsciiBlank = true) :
    cutColon (key ++ ':' :: after) = some (key, after) := by
  induction key with
  | nil =>
    rw [List.nil_append, cutColon, apart]
    rfl
  | cons c key ih =>
    have hcolon : (c = ':' && (key ++ ':' :: after).head?.all isAsciiBlank) = false := by
      rw [Bool.and_eq_false_iff, decide_eq_false_iff_not, ← imp_iff_not_or]
      rintro rfl
      cases key with
      | nil => rfl
      | cons d key => exact free [] d key rfl
    rw [List.cons_append, cutColon, hcolon, if_neg Bool.false_ne_true,
      ih fun front d behind h => free (c :: front) d behind (by rw [h, List.cons_append])]
    rfl

theorem of_cutColon {text : List Char} : ∀ {key after : List Char},
    cutColon text = some (key, after) → text = key ++ ':' :: after ∧
      after.head?.all isAsciiBlank = true ∧
      ∀ front c behind, key = front ++ ':' :: c :: behind → isAsciiBlank c = false := by
  induction text with
  | nil => exact fun h => nomatch h
  | cons c text ih =>
    intro key after h
    rw [cutColon] at h
    split at h
    · next hcolon =>
      cases h
      rw [Bool.and_eq_true, decide_eq_true_iff] at hcolon
      refine ⟨by rw [hcolon.1, List.nil_append], hcolon.2, fun front d behind hkey => ?_⟩
      exact absurd hkey.symm (by simp)
    · next hcolon =>
      obtain ⟨⟨key', after'⟩, hcut, he⟩ := Option.map_eq_some_iff.1 h
      cases he
      obtain ⟨rfl, hapart, hfree⟩ := ih hcut
      refine ⟨rfl, hapart, fun front d behind hkey => ?_⟩
      cases front with
      | nil =>
        obtain ⟨rfl, rfl⟩ := List.cons.inj hkey
        simpa using hcolon
      | cons _ front => exact hfree front d behind (List.cons.inj hkey).2

/-- **An entry is split where it is written so**, and what is behind it loses its comment. -/
theorem splitEntry_eq_some_iff {value : List Char} : splitEntry text = some (name, value) ↔
    ∃ after, Entry text name after ∧ value = dropComment (trim after) := by
  constructor
  · intro h
    cases text with
    | nil => cases h
    | cons q cs =>
      unfold splitEntry at h
      dsimp only at h
      split at h
      · next hquote =>
        split at h
        · next key after hcut =>
          obtain ⟨hfree, rfl⟩ := cut_eq_some_iff.1 hcut
          split at h
          · next hapart =>
            cases h
            exact ⟨after, .quoted hquote hfree hapart, rfl⟩
          · cases h
        · cases h
      · next hquote =>
        split at h
        · next key after hcut =>
          obtain ⟨htext, hapart, hfree⟩ := of_cutColon hcut
          split at h
          · cases h
          · next hnamed =>
            cases h
            refine ⟨after, htext ▸ .plain ?_ (by simpa using hnamed) hfree hapart, rfl⟩
            cases key with
            | nil => rfl
            | cons c key =>
              obtain ⟨rfl, -⟩ := List.cons.inj htext
              simpa [isQuoted] using hquote
        · cases h
  · rintro ⟨after, h, rfl⟩
    cases h with
    | @quoted q key after mark free apart =>
      have hcut : cut q (key ++ q :: ':' :: after) = some (key, ':' :: after) :=
        cut_eq_some_iff.2 ⟨free, rfl⟩
      unfold splitEntry
      dsimp only
      rw [if_pos mark, hcut]
      exact if_pos apart
    | @plain key after bare named free apart =>
      have hcut := cutColon_append free apart
      have hnamed : (trim key).isEmpty = false := by simpa using named
      cases key with
      | nil => exact absurd rfl named
      | cons c key =>
        have hquote : isQuoteMark c = false := bare
        rw [List.cons_append] at hcut ⊢
        unfold splitEntry
        dsimp only
        rw [if_neg (Bool.eq_false_iff.1 hquote), hcut]
        dsimp only
        rw [hnamed]
        rfl

namespace Entry

theorem splitEntry_eq (h : Entry text name after) :
    splitEntry text = some (name, dropComment (trim after)) :=
  splitEntry_eq_some_iff.2 ⟨after, h, rfl⟩

/-- What is behind the colon may go on. -/
theorem append (h : Entry text name after) {more : List Char} (hmore : more.head? = some ' ') :
    Entry (text ++ more) name (after ++ more) := by
  have hhead : ∀ {p : Char → Bool}, p ' ' = true → after.head?.all p = true →
      (after ++ more).head?.all p = true := by
    intro p hp hafter
    cases after with
    | nil => rw [List.nil_append, hmore]; exact hp
    | cons c after => exact hafter
  cases h with
  | quoted mark free apart =>
    have := Entry.quoted mark free (hhead (by decide) apart)
    simpa using this
  | plain bare named free apart =>
    have := Entry.plain bare named free (hhead (by decide) apart)
    simpa using this

/-- Blanks at the end are behind the colon. -/
theorem trimEnd (h : Entry text name after) : Entry (trimEnd text) name (trimEnd after) := by
  have hhead : ∀ {p : Char → Bool}, after.head?.all p = true →
      (Chars.trimEnd after).head?.all p = true := by
    intro p hafter
    obtain ⟨blank, he, -⟩ := exists_trimEnd_append after
    cases ht : Chars.trimEnd after with
    | nil => rfl
    | cons c cs =>
      rw [ht] at he
      rw [he] at hafter
      exact hafter
  have hcolon : ∀ front, Chars.trimEnd (front ++ ':' :: after) =
      front ++ ':' :: Chars.trimEnd after := by
    intro front
    have hkeep : Chars.trimEnd (':' :: after) = ':' :: Chars.trimEnd after :=
      trimEnd_cons (by decide) after
    rw [trimEnd_append (by rw [hkeep]; exact List.cons_ne_nil _ _), hkeep]
  cases h with
  | @quoted q key _ mark free apart =>
    have := Entry.quoted mark free (hhead apart)
    have htext := hcolon (q :: (key ++ [q]))
    simp only [List.cons_append, List.append_assoc, List.nil_append] at htext
    rwa [htext]
  | plain bare named free apart =>
    rw [hcolon]
    exact .plain bare named free (hhead apart)

/-- The text has a colon, and is not blank. -/
theorem mem (h : Entry text name after) : ':' ∈ text := by
  cases h <;> simp

/-- An entry that begins with no quote and no bracket opens a mapping behind a dash. -/
theorem isEntryItem (h : Entry text name after)
    (begins : ∃ c cs, text = c :: cs ∧ c ∉ ['"', '\'', '\x7b', '[']) : isEntryItem text = true := by
  have hsplit : (splitEntry text).isSome = true := by
    rw [h.splitEntry_eq]
    rfl
  obtain ⟨c, cs, rfl, hc⟩ := begins
  have hplain : isQuoteMark c = false ∧ c ≠ '\x7b' ∧ c ≠ '[' := by
    simpa [isQuoteMark, and_assoc] using hc
  unfold Yaml.isEntryItem
  rw [hsplit]
  simp [isQuoted, hplain]

end Entry

/-! ## Where an entry stands -/

/-- A raw line holds an entry in a column: it stands on a line of its own, or behind a dash. -/
inductive EntryLine : List Char → Nat → List Char → Prop
  | own {margin text : List Char} (margin_blank : ∀ c ∈ margin, isBlank c = true)
      (begins : ∃ c cs, text = c :: cs ∧ isBlank c = false ∧ c ≠ '#')
      (single : ∀ rest, text ≠ '-' :: ' ' :: rest) :
    EntryLine (margin ++ text) (byteSize margin) text
  | item {margin gap text : List Char} (margin_blank : ∀ c ∈ margin, isBlank c = true)
      (gap_blank : ∀ c ∈ gap, isBlank c = true) (apart : gap.head? = some ' ')
      (begins : ∃ c cs, text = c :: cs ∧ isBlank c = false ∧ c ∉ ['"', '\'', '\x7b', '[']) :
    EntryLine (margin ++ '-' :: (gap ++ text)) (byteSize margin + 1 + byteSize gap) text

/-- The line at a number, which says something. -/
def lineOf (number : Nat) (raw : List Char) : Line where
  number
  column := byteSize (raw.takeWhile isBlank)
  text := trimEnd (trimStart raw)

/-- The line puts an entry into a mapping in a column: its own, or the one of the item it is. -/
inductive Line.Enters (line : Line) : Nat → List Char → Prop
  | own (single : isItem line.text = false) : Enters line line.column line.text
  | item {gap text : List Char} (dash : line.text = '-' :: (gap ++ text))
      (item : isItem line.text = true) (gap_blank : ∀ c ∈ gap, isBlank c = true)
      (begins : ∃ c cs, text = c :: cs ∧ isBlank c = false) (entry : isEntryItem text = true) :
    Enters line (line.column + 1 + byteSize gap) text

section Line

variable {raw margin : List Char} {column : Nat} {line : Line}

theorem takeWhile_margin (h : ∀ c ∈ margin, isBlank c = true)
    (ht : ∀ c ∈ text.head?, isBlank c = false) : (margin ++ text).takeWhile isBlank = margin := by
  rw [List.takeWhile_append_of_pos h]
  cases text with
  | nil => exact List.append_nil _
  | cons c cs =>
    rw [List.takeWhile_cons_of_neg (by rw [ht c rfl]; exact Bool.false_ne_true), List.append_nil]

theorem ofChars?_eq (n : Nat) (h : ∃ c cs, trimStart raw = c :: cs ∧ c ≠ '#') :
    Line.ofChars? n raw = some (lineOf n raw) := by
  obtain ⟨c, cs, hraw, hc⟩ := h
  unfold Line.ofChars?
  dsimp only
  rw [if_neg]
  · rfl
  · simpa [hraw] using hc

theorem isItem_dash {gap : List Char} (apart : gap.head? = some ' ') :
    isItem ('-' :: (gap ++ text)) = true := by
  obtain ⟨gap, rfl⟩ := List.head?_eq_some_iff.1 apart
  rfl

theorem isItem_trimEnd_eq_false (h : Entry text name after)
    (single : ∀ rest, text ≠ '-' :: ' ' :: rest) : isItem (trimEnd text) = false := by
  obtain ⟨blank, htext, -⟩ := exists_trimEnd_append text
  have hcolon := h.trimEnd.mem
  generalize trimEnd text = trimmed at *
  unfold isItem
  split
  · exact absurd hcolon (by decide)
  · next rest => exact absurd htext (single _)
  · rfl

theorem ofChars?_dash {behind : List Char} (margin_blank : ∀ c ∈ margin, isBlank c = true)
    (n : Nat) :
    Line.ofChars? n (margin ++ '-' :: behind) = some (lineOf n (margin ++ '-' :: behind)) := by
  refine ofChars?_eq n ⟨'-', behind, ?_, by decide⟩
  rw [trimStart_append margin_blank, trimStart_cons (by decide)]

/-- The line that holds an entry says something. -/
theorem EntryLine.ofChars?_eq (h : EntryLine raw column text) (n : Nat) :
    Line.ofChars? n raw = some (lineOf n raw) := by
  cases h with
  | own margin_blank begins =>
    obtain ⟨c, cs, rfl, hc, hsharp⟩ := begins
    refine Yaml.ofChars?_eq n ⟨c, cs, ?_, hsharp⟩
    rw [trimStart_append margin_blank, trimStart_cons hc]
  | item margin_blank => exact ofChars?_dash margin_blank n

/-- What is behind a margin is the text of its line, without the blanks at the end. -/
theorem lineOf_margin (margin_blank : ∀ c ∈ margin, isBlank c = true)
    (begins : ∃ c cs, text = c :: cs ∧ isBlank c = false) (n : Nat) :
    lineOf n (margin ++ text) = ⟨n, byteSize margin, trimEnd text⟩ := by
  obtain ⟨c, cs, rfl, hc⟩ := begins
  have hhead : ∀ d ∈ (c :: cs).head?, isBlank d = false := by
    rintro _ ⟨⟩
    exact hc
  unfold lineOf
  rw [takeWhile_margin margin_blank hhead, trimStart_append margin_blank, trimStart_of_head hhead]

theorem lineOf_dash {gap : List Char} (margin_blank : ∀ c ∈ margin, isBlank c = true)
    (begins : ∃ c cs, text = c :: cs ∧ isBlank c = false) (n : Nat) :
    lineOf n (margin ++ '-' :: (gap ++ text)) =
      ⟨n, byteSize margin, '-' :: (gap ++ trimEnd text)⟩ := by
  obtain ⟨c, cs, rfl, hc⟩ := begins
  have hbehind : trimEnd (gap ++ c :: cs) = gap ++ trimEnd (c :: cs) :=
    trimEnd_append (by rw [trimEnd_cons hc]; exact List.cons_ne_nil _ _) gap
  rw [lineOf_margin margin_blank ⟨'-', _, rfl, by decide⟩, trimEnd_cons (by decide), hbehind]

/-- **The line that holds an entry puts it into a mapping** in the column of its key. -/
theorem EntryLine.enters (h : EntryLine raw column text) (he : Entry text name after) (n : Nat) :
    (lineOf n raw).Enters column (trimEnd text) := by
  cases h with
  | @own margin _ margin_blank begins single =>
    obtain ⟨c, cs, htext, hc, -⟩ := begins
    rw [lineOf_margin margin_blank ⟨c, cs, htext, hc⟩]
    exact @Line.Enters.own ⟨n, byteSize margin, trimEnd text⟩ (isItem_trimEnd_eq_false he single)
  | @item margin gap _ margin_blank gap_blank apart begins =>
    obtain ⟨c, cs, rfl, hc, hmark⟩ := begins
    have hend : trimEnd (c :: cs) = c :: trimEnd cs := trimEnd_cons hc cs
    rw [lineOf_dash margin_blank ⟨c, cs, rfl, hc⟩]
    exact @Line.Enters.item ⟨n, byteSize margin, _⟩ gap _ rfl (isItem_dash apart) gap_blank
      ⟨c, _, hend, hc⟩ (he.trimEnd.isEntryItem ⟨c, _, hend, hmark⟩)

/-- The line that holds an entry is no document marker. -/
theorem EntryLine.not_marker (h : EntryLine raw column text) (he : Entry text name after) :
    trimStart raw ≠ ['-', '-', '-'] := by
  have hcolon : ':' ∈ trimStart raw := by
    cases h with
    | own margin_blank begins =>
      obtain ⟨c, cs, rfl, hc, -⟩ := begins
      rw [trimStart_append margin_blank, trimStart_cons hc]
      exact he.mem
    | item margin_blank =>
      rw [trimStart_append margin_blank, trimStart_cons (by decide)]
      simp [he.mem]
  intro hraw
  rw [hraw] at hcolon
  exact absurd hcolon (by decide)

theorem EntryLine.linesFrom_cons (h : EntryLine raw column text) (he : Entry text name after)
    (n : Nat) (started : Bool) (rest : List (List Char)) :
    linesFrom n started (raw :: rest) = lineOf n raw :: linesFrom (n + 1) true rest :=
  Yaml.linesFrom_cons (h.ofChars?_eq n) (.inr (h.not_marker he)) rest

/-- What a sequence makes of the text behind a dash: the first entry of a mapping, or a scalar. -/
theorem OpenSequence.add_dash {s : OpenSequence} {gap item : List Char}
    (gap_blank : ∀ c ∈ gap, isBlank c = true)
    (begins : ∃ c cs, item = c :: cs ∧ isBlank c = false) : s.add ('-' :: (gap ++ item)) =
      if isEntryItem item then ({ s with items := s.close, gap := false },
        some (OpenMapping.add ⟨s.column + 1 + byteSize gap, [], .none⟩ item))
      else ({ s with items := s.close ++ [ofScalar item], gap := false }, none) := by
  obtain ⟨c, cs, rfl, hc⟩ := begins
  have hhead : ∀ d ∈ (c :: cs).head?, isBlank d = false := by
    rintro _ ⟨⟩
    exact hc
  unfold add
  dsimp only
  rw [List.drop_succ_cons, List.drop_zero, trimStart_append gap_blank, trimStart_of_head hhead,
    takeWhile_margin gap_blank hhead]
  rfl

/-- An entry goes into a mapping in its column, an open one or that of a new item. -/
theorem Line.Enters.head?_add {item : List Char} (h : line.Enters column item) {b : OpenBlock}
    (hb : b.place line = .add) : ∃ m : OpenMapping, m.column = column ∧
      (b.add line).head? = some (.mapping (m.add item)) := by
  cases h with
  | own single =>
    cases b with
    | mapping m => exact ⟨m, (OpenMapping.of_place_add hb).1.symm, rfl⟩
    | sequence s =>
      rw [(OpenSequence.of_place_add hb).2] at single
      cases single
  | @item gap _ dash isitem gap_blank begins entry =>
    cases b with
    | mapping m =>
      rw [(OpenMapping.of_place_add hb).2] at isitem
      cases isitem
    | sequence s =>
      refine ⟨⟨s.column + 1 + byteSize gap, [], .none⟩, ?_, ?_⟩
      · rw [(OpenSequence.of_place_add hb).1]
      · unfold OpenBlock.add
        rw [dash]
        simp only [OpenSequence.add_dash gap_blank begins, entry, if_true]
        rfl

end Line

end Yaml

end DockerSim
