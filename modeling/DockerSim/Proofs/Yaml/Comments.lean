import DockerSim.Proofs.Yaml.EntryLines
import DockerSim.Proofs.Yaml.Layout
import DockerSim.Proofs.Yaml.Slices
import DockerSim.Proofs.YamlKeys

/-!
# Comments behind a line

A comment that is written behind a line, a blank in front of its mark, is `Transparent` when no
document comes to something else by it. Whether it is depends on what the line holds
(`Commentable.transparent_iff`): behind a plain value every comment is passed over, and behind a
bare key every one that has no second mark with a blank in front of it. Behind a quoted value, and
behind a scalar item, no comment is: it becomes a part of the value.

A comment that is dropped leaves a line that every block takes as it takes the line without it
(`Line.Alike`), so that nothing around it matters. One that is not dropped makes a longer string of
the value (`ofScalar_commented_ne`), which shows in the document of that line alone.
-/

namespace DockerSim.Yaml

open Chars

variable {text after : List Char} {name : String}

/-! ## Where a comment begins -/

/-- A raw line with a comment behind it. -/
def commented (raw comment : List Char) : List Char := raw ++ ' ' :: '#' :: ' ' :: comment

theorem upTo_append {s before : List Char} (h : dropComment.upTo s = some before)
    (rest : List Char) : dropComment.upTo (s ++ rest) = some before := by
  induction s using dropComment.upTo.induct generalizing before with
  | case1 tail => exact h
  | case2 c cs hne ih =>
    rw [dropComment.upTo] at h
    · obtain ⟨b, hb, rfl⟩ := Option.map_eq_some_iff.1 h
      rw [List.cons_append, dropComment.upTo, ih hb]
      · rfl
      · rintro tail rfl htail
        cases cs with
        | nil => cases hb
        | cons d cs =>
          obtain ⟨rfl, -⟩ := List.cons.inj htail
          exact hne cs rfl rfl
    · exact hne
  | case3 => cases h

/-- A text without a comment, with something behind it that has none and does not begin with a mark,
has no comment. -/
theorem upTo_append_eq {s rest : List Char} (h : dropComment.upTo s = none)
    (hrest : rest.head? ≠ some '#') :
    dropComment.upTo (s ++ rest) = (dropComment.upTo rest).map (s ++ ·) := by
  induction s using dropComment.upTo.induct with
  | case1 tail => cases h
  | case2 c cs hne ih =>
    rw [dropComment.upTo] at h
    · rw [List.cons_append, dropComment.upTo, ih (Option.map_eq_none_iff.1 h), Option.map_map]
      · rfl
      · rintro tail rfl htail
        cases cs with
        | nil => exact hrest (by rw [← List.nil_append rest, htail]; rfl)
        | cons d cs =>
          obtain ⟨rfl, -⟩ := List.cons.inj htail
          exact hne cs rfl rfl
    · exact hne
  | case3 => simp

/-- A comment begins at a mark with a blank in front of it. -/
theorem upTo_eq_none_iff {s : List Char} : dropComment.upTo s = none ↔ ¬[' ', '#'] <:+: s := by
  induction s using dropComment.upTo.induct with
  | case1 tail => exact iff_of_false (Option.some_ne_none _) (not_not_intro ⟨[], tail, rfl⟩)
  | case2 c cs hne ih =>
    have hfirst : ¬[' ', '#'] <+: c :: cs := by
      rintro ⟨tail, htail⟩
      obtain ⟨rfl, rfl⟩ := List.cons.inj htail
      exact hne tail rfl rfl
    rw [dropComment.upTo, Option.map_eq_none_iff, ih, List.infix_cons_iff, not_or]
    · exact ⟨fun h => ⟨hfirst, h⟩, And.right⟩
    · exact hne
  | case3 => exact ⟨fun _ h => by simpa using h.length_le, fun _ => rfl⟩

theorem not_mem_of_blank {blank : List Char} (h : ∀ c ∈ blank, isBlank c = true) : '#' ∉ blank :=
  fun hmem => absurd (h _ hmem) (by decide)

/-- Blanks at the end make no comment, and hide none. -/
theorem upTo_trimEnd (s : List Char) : dropComment.upTo (trimEnd s) = dropComment.upTo s := by
  obtain ⟨blank, hs, hblank⟩ := exists_trimEnd_append s
  have hsharp := not_mem_of_blank hblank
  conv_rhs => rw [hs]
  cases h : dropComment.upTo (trimEnd s) with
  | some before => rw [upTo_append h]
  | none =>
    rw [upTo_append_eq h fun he => hsharp (List.mem_of_head? he), upTo_eq_none hsharp]
    rfl

theorem trimEnd_commented (s comment : List Char) :
    trimEnd (commented s comment) = s ++ ' ' :: '#' :: trimEnd (' ' :: comment) := by
  have hmark : trimEnd ('#' :: ' ' :: comment) = '#' :: trimEnd (' ' :: comment) :=
    trimEnd_cons (by decide) _
  have happend : commented s comment = (s ++ [' ']) ++ '#' :: ' ' :: comment := by
    simp [commented]
  rw [happend, trimEnd_append (by rw [hmark]; exact List.cons_ne_nil _ _), hmark,
    List.append_assoc]
  rfl

theorem trim_commented {c : Char} {cs : List Char} (h : trim after = c :: cs)
    (comment : List Char) : ∃ rest, trim after = trimEnd (c :: rest) ∧
      trim (commented after comment) = trimEnd (commented (c :: rest) comment) := by
  obtain ⟨hc, rest, hrest⟩ := exists_of_trim h
  refine ⟨rest, by rw [trim, hrest], ?_⟩
  have hstart : trimStart (commented after comment) = commented (trimStart after) comment := by
    unfold trimStart commented
    rw [List.dropWhile_append, if_neg]
    rw [show after.dropWhile isBlank = c :: rest from hrest]
    simp
  rw [trim, hstart, hrest]

theorem trim_commented_of_blank (h : trim after = []) (comment : List Char) :
    trim (commented after comment) = '#' :: trimEnd (' ' :: comment) := by
  have hblank : ∀ c ∈ after ++ [' '], isBlank c = true :=
    List.forall_mem_append.2 ⟨trim_eq_nil_iff.1 h, List.forall_mem_singleton.2 rfl⟩
  have happend : commented after comment = (after ++ [' ']) ++ '#' :: ' ' :: comment := by
    simp [commented]
  rw [trim, happend, trimStart_append hblank, trimStart_cons (by decide), trimEnd_cons (by decide)]

/-- **Behind a plain value the comment is dropped**, whatever the value holds. -/
theorem dropComment_commented {c : Char} (hc : isBlank c = false) (hmark : c ∉ ['"', '\'', '#'])
    (cs comment : List Char) :
    dropComment (trimEnd (commented (c :: cs) comment)) = dropComment (trimEnd (c :: cs)) := by
  have hplain : isQuoteMark c = false ∧ c ≠ '#' := by
    simpa [isQuoteMark, and_assoc] using hmark
  have hdrop : ∀ rest, dropComment (c :: rest) =
      (dropComment.upTo (c :: rest)).elim (c :: rest) trimEnd := by
    intro rest
    unfold dropComment
    rw [if_neg (by simp [isQuoted, hplain.1])]
    cases dropComment.upTo (c :: rest) with
    | some before => rfl
    | none => exact if_neg (by simpa using hplain.2)
  have hplainly : dropComment (trimEnd (c :: cs)) =
      (dropComment.upTo (c :: cs)).elim (trimEnd (c :: cs)) trimEnd := by
    rw [← upTo_trimEnd, trimEnd_cons hc, hdrop]
  rw [trimEnd_commented, List.cons_append, hdrop, ← List.cons_append, hplainly]
  cases h : dropComment.upTo (c :: cs) with
  | some before =>
    rw [upTo_append h]
    rfl
  | none =>
    rw [upTo_append_eq h (by simp)]
    simp [dropComment.upTo]

/-! ## Scalars that keep a mark -/

theorem natural?_eq_none {ds : List Char} (h : '#' ∈ ds) : natural? ds = none := by
  cases hn : natural? ds with
  | none => rfl
  | some n => exact absurd ((natural?_eq_some hn).2 _ h) (by decide)

theorem signed?_eq_none {cs : List Char} (h : '#' ∈ cs) (bound : Nat) :
    signed? bound cs = none := by
  unfold signed?
  split
  · next ds =>
    rw [natural?_eq_none (by simpa using h)]
    rfl
  · cases hn : unsigned? bound cs with
    | none => rfl
    | some n => exact absurd ((mem_of_unsigned? hn).2 _ h) (by decide)

theorem looksNumeric_eq_false {cs : List Char} (h : '#' ∈ cs) : looksNumeric cs = false := by
  have hsign : '#' ∉ cs.takeWhile fun c => c == '+' || c == '-' :=
    fun hmem => absurd (List.mem_takeWhile_imp hmem) (by decide)
  rw [← List.takeWhile_append_dropWhile (p := fun c => c == '+' || c == '-') (l := cs)] at h
  unfold looksNumeric
  dsimp only
  rw [Bool.and_eq_false_iff, List.all_eq_false]
  exact .inr ⟨'#', (List.mem_append.1 h).resolve_left hsign, by decide⟩

/-- A scalar with a mark in it is a string. -/
theorem ofScalar_of_mem {cs : List Char} (h : '#' ∈ cs) :
    ofScalar cs = .str (.ofList ((unquoted? cs).getD cs)) := by
  have hword : ∀ w : String, '#' ∉ w.toList → String.ofList cs ≠ w := by
    rintro w hw rfl
    rw [String.toList_ofList] at hw
    exact hw h
  unfold ofScalar
  dsimp only
  split
  · next he => exact absurd he (hword _ (by decide))
  · next he => exact absurd he (hword _ (by decide))
  · next he => exact absurd he (hword _ (by decide))
  · next he => exact absurd he (hword _ (by decide))
  · rw [signed?_eq_none h, looksNumeric_eq_false h]
    cases unquoted? cs <;> rfl

theorem length_unquoted? {cs inside : List Char} (h : unquoted? cs = some inside) :
    inside.length + 2 = cs.length ∧ ∃ q ∈ cs.getLast?, isQuoteMark q = true := by
  cases cs with
  | nil => cases h
  | cons q rest =>
    unfold unquoted? at h
    dsimp only at h
    split at h
    · next hmark =>
      cases h
      obtain ⟨hq, hlast⟩ : isQuoteMark q = true ∧ rest.getLast? = some q := by simpa using hmark
      have hne : rest ≠ [] := by
        rintro rfl
        cases hlast
      have hpos := List.length_pos_of_ne_nil hne
      refine ⟨?_, q, ?_, hq⟩
      · rw [List.length_dropLast, List.length_cons]
        omega
      · rw [List.getLast?_cons, hlast]
        rfl
    · cases h

theorem length_le_of_ofScalar {cs : List Char} {t : String} (h : ofScalar cs = .str t) :
    t.toList.length ≤ cs.length := by
  unfold ofScalar at h
  dsimp only at h
  split at h
  · cases h
  · cases h
  · cases h
  · cases h
  · split at h
    · next inside hinside =>
      cases h
      have := (length_unquoted? hinside).1
      rw [String.toList_ofList]
      omega
    · split at h
      · cases h
      · have htext : t = .ofList cs := by
          split at h
          · cases hf : float? cs with
            | none => rw [hf] at h; cases h; rfl
            | some x => rw [hf] at h; cases h
          · cases h; rfl
        rw [htext, String.toList_ofList]

/-- **A comment that is not dropped makes another value.** The value is a string then, longer than
what was in front of the comment. -/
theorem ofScalar_commented_ne (s comment : List Char) :
    ofScalar (trimEnd (commented s comment)) ≠ ofScalar (trimEnd s) := by
  obtain ⟨blank, hs, -⟩ := exists_trimEnd_append s
  have hshort := congrArg List.length hs
  rw [List.length_append] at hshort
  rw [trimEnd_commented]
  intro h
  rw [ofScalar_of_mem (by simp)] at h
  have hle := length_le_of_ofScalar h.symm
  rw [String.toList_ofList] at hle
  cases hquote : unquoted? (s ++ ' ' :: '#' :: trimEnd (' ' :: comment)) with
  | none =>
    rw [hquote, Option.getD_none, List.length_append, List.length_cons] at hle
    omega
  | some inside =>
    obtain ⟨hlength, q, hlast, hq⟩ := length_unquoted? hquote
    -- The quote at the end is not the mark, so it is in the comment.
    have hpos : 0 < (trimEnd (' ' :: comment)).length := by
      refine List.length_pos_of_ne_nil fun hnil => ?_
      rw [hnil, List.getLast?_append] at hlast
      cases hlast
      cases hq
    rw [hquote, Option.getD_some] at hle
    rw [List.length_append, List.length_cons, List.length_cons] at hlength
    omega

/-! ## Lines that are read the same -/

/-- Every block that the lines can be added to makes the same of them. -/
structure Line.Alike (l l' : Line) : Prop where
  number : l.number = l'.number
  column : l.column = l'.column
  item : isItem l.text = isItem l'.text
  add : ∀ b : OpenBlock, b.place l = .add → b.add l = b.add l'

namespace Line.Alike

variable {l l' : Line}

theorem place (h : Alike l l') (b : OpenBlock) : b.place l = b.place l' := by
  cases b with
  | mapping m =>
    show m.place l = m.place l'
    unfold OpenMapping.place
    rw [h.column, h.item]
  | sequence s =>
    show s.place l = s.place l'
    unfold OpenSequence.place
    rw [h.column, h.item]

theorem ofLine (h : Alike l l') : OpenBlock.ofLine l = OpenBlock.ofLine l' := by
  unfold OpenBlock.ofLine
  rw [← h.item, ← h.column]
  split
  · next hitem => exact h.add _ (by simp [OpenBlock.place, OpenSequence.place, hitem])
  · next hitem => exact h.add _ (by simp [OpenBlock.place, OpenMapping.place, hitem])

theorem opened (h : Alike l l') (o : Outline) : o.opened l = o.opened l' := by
  rw [Outline.opened, Outline.opened, h.ofLine]

theorem step (h : Alike l l') (o : Outline) : o.step l = o.step l' := by
  induction o using Outline.induction with
  | top m =>
    have hplace : m.place l = m.place l' := h.place (.mapping m)
    rw [Seat.step_top, Seat.step_top, ← hplace, h.opened, h.number]
    split
    · rfl
    · rfl
    · next hadd =>
      obtain ⟨hm, -⟩ := List.cons.inj (h.add (.mapping m) hadd)
      rw [OpenBlock.mapping.inj hm]
    · rfl
    · rfl
  | push o b ih =>
    rw [Outline.step_push, Outline.step_push, ← h.place b, h.opened, h.number]
    split
    · rfl
    · rfl
    · next hadd => rw [h.add b hadd]
    · exact ih _
    · rfl

/-- **Reading does not tell the lines apart**, whatever is around them. -/
theorem outlineOf (h : Alike l l') (front rest : List Line) :
    Yaml.outlineOf (front ++ l :: rest) = Yaml.outlineOf (front ++ l' :: rest) := by
  have hfold : ∀ o : Outline,
      (l :: rest).foldlM Outline.step o = (l' :: rest).foldlM Outline.step o := by
    intro o
    rw [List.foldlM_cons, List.foldlM_cons, h.step]
  cases front with
  | nil =>
    unfold Yaml.outlineOf
    dsimp only [List.nil_append]
    rw [h.item, h.number, h.column, hfold]
  | cons first front =>
    rw [outlineOf_append (List.cons_ne_nil _ _), outlineOf_append (List.cons_ne_nil _ _)]
    congr 1
    funext o
    exact hfold o

end Line.Alike

theorem OpenMapping.add_congr (m : OpenMapping) {text text' : List Char}
    (h : splitEntry text = splitEntry text') : m.add text = m.add text' := by
  unfold add
  rw [h]

variable {n column : Nat}

theorem alike_own {t t' : List Char} (single : isItem t = false) (single' : isItem t' = false)
    (same : splitEntry t = splitEntry t') : Line.Alike ⟨n, column, t⟩ ⟨n, column, t'⟩ := by
  refine ⟨rfl, rfl, single.trans single'.symm, fun b hb => ?_⟩
  cases b with
  | mapping m => exact congrArg (fun m => [OpenBlock.mapping m]) (m.add_congr same)
  | sequence s =>
    have := (OpenSequence.of_place_add hb).2
    rw [single] at this
    cases this

theorem alike_item {gap item item' : List Char} (gap_blank : ∀ c ∈ gap, isBlank c = true)
    (apart : gap.head? = some ' ') (begins : ∃ c cs, item = c :: cs ∧ isBlank c = false)
    (begins' : ∃ c cs, item' = c :: cs ∧ isBlank c = false) (entry : isEntryItem item = true)
    (entry' : isEntryItem item' = true) (same : splitEntry item = splitEntry item') :
    Line.Alike ⟨n, column, '-' :: (gap ++ item)⟩ ⟨n, column, '-' :: (gap ++ item')⟩ := by
  refine ⟨rfl, rfl, (isItem_dash apart).trans (isItem_dash apart).symm, fun b hb => ?_⟩
  cases b with
  | mapping m =>
    have := (OpenMapping.of_place_add hb).2
    rw [isItem_dash apart] at this
    cases this
  | sequence s =>
    unfold OpenBlock.add
    dsimp only
    rw [OpenSequence.add_dash gap_blank begins, OpenSequence.add_dash gap_blank begins', entry,
      entry', if_pos rfl, if_pos rfl, OpenMapping.add_congr _ same]

/-! ## Comments behind an entry -/

variable {raw comment : List Char}

theorem Entry.commented (h : Entry text name after) (comment : List Char) :
    Entry (commented text comment) name (commented after comment) := h.append rfl

/-- A comment makes no dash with a blank behind it. -/
theorem Entry.single_commented (h : Entry text name after)
    (single : ∀ rest, text ≠ '-' :: ' ' :: rest) (comment rest : List Char) :
    Yaml.commented text comment ≠ '-' :: ' ' :: rest := by
  intro hrest
  cases text with
  | nil => cases hrest
  | cons c cs =>
    cases cs with
    | nil =>
      have hdash : c = '-' := (List.cons.inj hrest).1
      rw [hdash] at h
      exact absurd h.mem (by decide)
    | cons d cs =>
      have hhead : c = '-' ∧ d = ' ' := by
        simpa [Yaml.commented] using congrArg (List.take 2) hrest
      exact single cs (by rw [hhead.1, hhead.2])

theorem commented_cons (c : Char) (cs comment : List Char) :
    commented (c :: cs) comment = c :: commented cs comment := rfl

theorem commented_own (margin text comment : List Char) :
    commented (margin ++ text) comment = margin ++ commented text comment := List.append_assoc ..

theorem commented_dash (margin gap text comment : List Char) :
    commented (margin ++ '-' :: (gap ++ text)) comment =
      margin ++ '-' :: (gap ++ commented text comment) := by
  simp [commented]

theorem EntryLine.commented (h : EntryLine raw column text) (he : Entry text name after)
    (comment : List Char) : EntryLine (commented raw comment) column (commented text comment) := by
  cases h with
  | own margin_blank begins single =>
    obtain ⟨c, cs, rfl, hc, hsharp⟩ := begins
    rw [commented_own]
    exact .own margin_blank ⟨c, _, rfl, hc, hsharp⟩ (he.single_commented single comment)
  | item margin_blank gap_blank apart begins =>
    obtain ⟨c, cs, rfl, hc, hmark⟩ := begins
    rw [commented_dash]
    exact .item margin_blank gap_blank apart ⟨c, _, rfl, hc, hmark⟩

/-- The line and the one with a comment are alike when the comment is dropped. -/
theorem EntryLine.alike (h : EntryLine raw column text) (he : Entry text name after)
    (hdrop : dropComment (trim (Yaml.commented after comment)) = dropComment (trim after))
    (n : Nat) : (lineOf n (Yaml.commented raw comment)).Alike (lineOf n raw) := by
  have he' := he.commented comment
  have hsame : splitEntry (trimEnd (Yaml.commented text comment)) = splitEntry (trimEnd text) := by
    rw [he.trimEnd.splitEntry_eq, he'.trimEnd.splitEntry_eq, trim_trimEnd, trim_trimEnd, hdrop]
  cases h with
  | @own margin _ margin_blank begins single =>
    obtain ⟨c, cs, rfl, hc, -⟩ := begins
    have hline : ∀ rest, lineOf n (margin ++ c :: rest) =
        ⟨n, byteSize margin, trimEnd (c :: rest)⟩ :=
      fun rest => lineOf_margin margin_blank ⟨c, rest, rfl, hc⟩ n
    rw [commented_own, commented_cons, hline, hline]
    exact alike_own (isItem_trimEnd_eq_false he' (he.single_commented single comment))
      (isItem_trimEnd_eq_false he single) hsame
  | @item margin gap _ margin_blank gap_blank apart begins =>
    obtain ⟨c, cs, rfl, hc, hmark⟩ := begins
    have hline : ∀ rest, lineOf n (margin ++ '-' :: (gap ++ c :: rest)) =
        ⟨n, byteSize margin, '-' :: (gap ++ trimEnd (c :: rest))⟩ :=
      fun rest => lineOf_dash margin_blank ⟨c, rest, rfl, hc⟩ n
    have hbegins : ∀ rest, trimEnd (c :: rest) = c :: trimEnd rest := trimEnd_cons hc
    rw [commented_dash, commented_cons, hline, hline]
    exact alike_item gap_blank apart ⟨c, _, hbegins _, hc⟩ ⟨c, _, hbegins _, hc⟩
      (he'.trimEnd.isEntryItem ⟨c, _, hbegins _, hmark⟩)
      (he.trimEnd.isEntryItem ⟨c, _, hbegins _, hmark⟩) hsame

/-- **A comment that is dropped changes no document**, nor whether it is refused. -/
theorem EntryLine.parse_commented (h : EntryLine raw column text) (he : Entry text name after)
    (hdrop : dropComment (trim (Yaml.commented after comment)) = dropComment (trim after))
    {content content' : String} {front behind : List (List Char)}
    (hlines : lines content.toList = front ++ raw :: behind)
    (hlines' : lines content'.toList = front ++ Yaml.commented raw comment :: behind) :
    parse content' = parse content := by
  obtain ⟨started, -, happend⟩ := linesFrom_append front 1 false
  unfold parse linesOf
  rw [hlines, hlines', happend, happend, h.linesFrom_cons he,
    (h.commented he comment).linesFrom_cons (he.commented comment), ofLines_eq, ofLines_eq,
    (h.alike he hdrop _).outlineOf]

/-! ## Documents of one line -/

/-- What an entry holds when nothing stands below it. -/
def entryValue (value : List Char) : Yaml :=
  if value.isEmpty || isTextBlock value then .map [] else ofScalar value

theorem OpenMapping.close_add {value : List Char} (h : splitEntry text = some (name, value)) :
    (OpenMapping.add ⟨column, [], .none⟩ text).close = [(name, entryValue value)] := by
  unfold add entryValue
  rw [h]
  dsimp only
  cases value.isEmpty with
  | true => rfl
  | false =>
    cases isTextBlock value with
    | true => rfl
    | false => rfl

theorem ofLines_own {l : Line} (single : isItem l.text = false) :
    ofLines [l] = .ok (OpenMapping.add ⟨l.column, [], .none⟩ l.text).close := by
  rw [ofLines_eq, outlineOf_singleton single]
  rfl

theorem ofLines_item {gap item : List Char} {number : Nat} (gap_blank : ∀ c ∈ gap, isBlank c = true)
    (apart : gap.head? = some ' ') (begins : ∃ c cs, item = c :: cs ∧ isBlank c = false) :
    ofLines [⟨1, 0, ['k', ':']⟩, ⟨number, column, '-' :: (gap ++ item)⟩] =
      .ok [("k", .seq [if isEntryItem item then
        .map (OpenMapping.add ⟨column + 1 + byteSize gap, [], .none⟩ item).close
        else ofScalar item])] := by
  have hitem : isItem ('-' :: (gap ++ item)) = true := isItem_dash apart
  have hadd := @OpenSequence.add_dash ⟨column, [], false⟩ gap item gap_blank begins
  have hfirst : (Outline.start 0).step ⟨1, 0, ['k', ':']⟩ = .ok ⟨[], ⟨0, [], .value "k"⟩⟩ := rfl
  have hplace : OpenMapping.place ⟨0, [], .value "k"⟩ ⟨number, column, '-' :: (gap ++ item)⟩ =
      .nest := by
    unfold OpenMapping.place
    dsimp only
    rw [hitem, if_neg (by simp), if_pos (by simp; omega)]
  have hsecond : Outline.step ⟨[], ⟨0, [], .value "k"⟩⟩ ⟨number, column, '-' :: (gap ++ item)⟩ =
      .ok ⟨OpenBlock.add ⟨number, column, '-' :: (gap ++ item)⟩ (.sequence ⟨column, [], false⟩),
        ⟨0, [], .value "k"⟩⟩ := by
    simp only [Outline.step, Outline.settle, hplace, OpenBlock.ofLine, hitem, if_true]
  rw [ofLines_eq, outlineOf]
  dsimp only
  rw [if_neg (by decide), List.foldlM_cons, hfirst]
  show Except.map Outline.close ([_].foldlM Outline.step ⟨[], ⟨0, [], .value "k"⟩⟩) = _
  rw [List.foldlM_cons, hsecond]
  show Except.ok (Outline.close _) = _
  unfold OpenBlock.add
  dsimp only
  rw [hadd]
  cases isEntryItem item <;> rfl

theorem EntryLine.ne_nil (h : EntryLine raw column text) : raw ≠ [] := by
  cases h with
  | own _ begins =>
    obtain ⟨c, cs, rfl, -⟩ := begins
    simp
  | item => simp

theorem parse_own {margin : List Char} (margin_blank : ∀ c ∈ margin, isBlank c = true)
    (begins : ∃ c cs, text = c :: cs ∧ isBlank c = false ∧ c ≠ '#')
    (single : ∀ rest, text ≠ '-' :: ' ' :: rest) (he : Entry text name after) {content : String}
    (hlines : lines content.toList = [margin ++ text]) :
    parse content = .ok [(name, entryValue (dropComment (trim after)))] := by
  have hline := EntryLine.own margin_blank begins single
  obtain ⟨c, cs, rfl, hc, -⟩ := begins
  have hsplit := he.trimEnd.splitEntry_eq
  rw [trim_trimEnd] at hsplit
  unfold parse linesOf
  rw [hlines, hline.linesFrom_cons he, lineOf_margin margin_blank ⟨c, cs, rfl, hc⟩, linesFrom,
    ofLines_own (isItem_trimEnd_eq_false he single), OpenMapping.close_add hsplit]

theorem parse_item {margin gap item : List Char} (margin_blank : ∀ c ∈ margin, isBlank c = true)
    (gap_blank : ∀ c ∈ gap, isBlank c = true) (apart : gap.head? = some ' ')
    (begins : ∃ c cs, item = c :: cs ∧ isBlank c = false) {content : String}
    (hlines : lines content.toList = [['k', ':'], margin ++ '-' :: (gap ++ item)]) :
    parse content = .ok [("k", .seq [if isEntryItem (trimEnd item) then
      .map (OpenMapping.add ⟨byteSize margin + 1 + byteSize gap, [], .none⟩ (trimEnd item)).close
      else ofScalar (trimEnd item)])] := by
  have hitem : linesFrom 2 true [margin ++ '-' :: (gap ++ item)] =
      [⟨2, byteSize margin, '-' :: (gap ++ trimEnd item)⟩] := by
    rw [linesFrom_cons (ofChars?_dash margin_blank 2) (.inl rfl), lineOf_dash margin_blank begins]
    rfl
  have hbegins : ∃ c cs, trimEnd item = c :: cs ∧ isBlank c = false := by
    obtain ⟨c, cs, rfl, hc⟩ := begins
    exact ⟨c, _, trimEnd_cons hc cs, hc⟩
  unfold parse linesOf
  rw [hlines]
  show ofLines (⟨1, 0, ['k', ':']⟩ :: linesFrom 2 true [margin ++ '-' :: (gap ++ item)]) = _
  rw [hitem, ofLines_item gap_blank apart hbegins]

/-! ## Transparent comments -/

/-- The comment behind the line changes no document that is read. -/
def Transparent (raw comment : List Char) : Prop :=
  ∀ (content content' : String) (front behind : List (List Char)) (doc : YamlMap),
    lines content.toList = front ++ raw :: behind →
    lines content'.toList = front ++ commented raw comment :: behind →
    parse content = .ok doc → parse content' = .ok doc

/-- What a line holds, as far as comments behind it are concerned. -/
inductive LineKind where
  /-- A key with nothing behind its colon. -/
  | bare
  /-- A key with a plain value. -/
  | plain
  /-- A key with a value between quotes. -/
  | quoted
  /-- A scalar behind a dash. -/
  | item
deriving DecidableEq

/-- The line is a bare key, a key with a scalar, or a scalar item. An entry may itself stand behind
a dash. -/
inductive Commentable : List Char → LineKind → Prop
  | bare {raw text after : List Char} {column : Nat} {name : String}
      (line : EntryLine raw column text) (entry : Entry text name after) (value : trim after = []) :
    Commentable raw .bare
  | plain {raw text after : List Char} {column : Nat} {name : String}
      (line : EntryLine raw column text) (entry : Entry text name after)
      (value : ∃ c cs, trim after = c :: cs ∧ c ∉ ['"', '\'', '#']) :
    Commentable raw .plain
  | quoted {raw text after : List Char} {column : Nat} {name : String}
      (line : EntryLine raw column text) (entry : Entry text name after)
      (value : ∃ q inside, trim after = q :: (inside ++ [q]) ∧ isQuoteMark q = true) :
    Commentable raw .quoted
  | item {margin gap text : List Char} (margin_blank : ∀ c ∈ margin, isBlank c = true)
      (gap_blank : ∀ c ∈ gap, isBlank c = true) (apart : gap.head? = some ' ')
      (begins : ∃ c cs, text = c :: cs ∧ isBlank c = false)
      (scalar : isEntryItem (trimEnd text) = false) :
    Commentable (margin ++ '-' :: (gap ++ text)) .item

/-- The comments that lines of a kind lose. -/
def LineKind.Drops : LineKind → List Char → Prop
  | .plain, _ => True
  | .bare, comment => ¬[' ', '#'] <:+: ' ' :: comment
  | .quoted, _ | .item, _ => False

theorem exists_lines (h : '\n' ∉ raw) (hne : raw ≠ []) {front : List (List Char)}
    (hfront : front = [] ∨ front = [['k', ':']]) :
    ∃ content : String, lines content.toList = front ++ [raw] := by
  have hraw : lines raw = [raw] := by
    rw [lines_of_not_mem h, if_neg (by simpa using hne)]
  rcases hfront with rfl | rfl
  · exact ⟨.ofList raw, by rw [String.toList_ofList, hraw, List.nil_append]⟩
  · refine ⟨.ofList (['k', ':'] ++ '\n' :: raw), ?_⟩
    rw [String.toList_ofList, lines_append_feed (by decide), hraw]
    rfl

theorem Transparent.parse_eq {front : List (List Char)} {content content' : String}
    {doc doc' : YamlMap} (h : Transparent raw comment)
    (hlines : lines content.toList = front ++ [raw])
    (hlines' : lines content'.toList = front ++ [commented raw comment])
    (hdoc : parse content = .ok doc) (hdoc' : parse content' = .ok doc') : doc = doc' := by
  have heq := h content content' front [] doc hlines hlines' hdoc
  rw [hdoc'] at heq
  exact (Except.ok.inj heq).symm

theorem feed_not_mem_commented (hraw : '\n' ∉ raw) (hcomment : '\n' ∉ comment) :
    '\n' ∉ commented raw comment := by
  simp [commented, hraw, hcomment]

theorem commented_ne_nil : commented raw comment ≠ [] := by simp [commented]

/-- A comment that changes the value of an entry changes the document made of it. -/
theorem EntryLine.not_transparent (h : EntryLine raw column text) (he : Entry text name after)
    (hraw : '\n' ∉ raw) (hcomment : '\n' ∉ comment)
    (hvalue : entryValue (dropComment (trim after)) ≠
      entryValue (dropComment (trim (Yaml.commented after comment)))) :
    ¬Transparent raw comment := by
  intro htrans
  have hfeed := feed_not_mem_commented hraw hcomment
  have he' := he.commented comment
  have hne := h.ne_nil
  cases h with
  | own margin_blank begins single =>
    obtain ⟨content, hlines⟩ := exists_lines hraw hne (.inl rfl)
    obtain ⟨content', hlines'⟩ := exists_lines hfeed commented_ne_nil (.inl rfl)
    have hdoc := parse_own margin_blank begins single he hlines
    have hdoc' : parse content' =
        .ok [(name, entryValue (dropComment (trim (Yaml.commented after comment))))] := by
      obtain ⟨c, cs, rfl, hc⟩ := begins
      rw [commented_own] at hlines'
      exact parse_own margin_blank ⟨c, _, rfl, hc⟩ (he.single_commented single comment) he' hlines'
    exact hvalue (by simpa using htrans.parse_eq hlines hlines' hdoc hdoc')
  | @item margin gap _ margin_blank gap_blank apart begins =>
    obtain ⟨c, cs, rfl, hc, hmark⟩ := begins
    obtain ⟨content, hlines⟩ := exists_lines hraw hne (.inr rfl)
    obtain ⟨content', hlines'⟩ := exists_lines hfeed commented_ne_nil (.inr rfl)
    have hread : ∀ {rest after content}, Entry (c :: rest) name after →
        lines content.toList = [['k', ':']] ++ [margin ++ '-' :: (gap ++ c :: rest)] →
        parse content =
          .ok [("k", .seq [.map [(name, entryValue (dropComment (trim after)))]])] := by
      intro rest after content he hlines
      have hend : trimEnd (c :: rest) = c :: trimEnd rest := trimEnd_cons hc rest
      have hsplit := he.trimEnd.splitEntry_eq
      rw [trim_trimEnd] at hsplit
      rw [parse_item margin_blank gap_blank apart ⟨c, rest, rfl, hc⟩ hlines,
        he.trimEnd.isEntryItem ⟨c, _, hend, hmark⟩, if_pos rfl, OpenMapping.close_add hsplit]
    have hdoc := hread he hlines
    rw [commented_dash, commented_cons] at hlines'
    have hdoc' := hread he' hlines'
    rw [← commented_cons, ← commented_dash] at hlines'
    exact hvalue (by simpa using htrans.parse_eq hlines hlines' hdoc hdoc')

theorem dropComment_hash (comment : List Char) :
    dropComment ('#' :: trimEnd (' ' :: comment)) =
      (dropComment.upTo (' ' :: comment)).elim [] fun before => '#' :: trimEnd before := by
  have hup : dropComment.upTo ('#' :: trimEnd (' ' :: comment)) =
      (dropComment.upTo (' ' :: comment)).map ('#' :: ·) := by
    rw [dropComment.upTo, upTo_trimEnd]
    exact fun _ h => absurd h (by decide)
  have hplain : isQuoted ('#' :: trimEnd (' ' :: comment)) = false := rfl
  unfold dropComment
  rw [hplain, if_neg Bool.false_ne_true, hup]
  cases dropComment.upTo (' ' :: comment) with
  | none => rfl
  | some before => exact trimEnd_cons (by decide) before

theorem entryValue_hash_ne (cs : List Char) : entryValue ('#' :: cs) ≠ .map [] := by
  have hscalar : entryValue ('#' :: cs) = ofScalar ('#' :: cs) := by
    simp [entryValue, isTextBlock]
  intro h
  have hmap := map?_ofScalar ('#' :: cs)
  rw [← hscalar, h] at hmap
  cases hmap

theorem entryValue_quoted {q : Char} (hq : isQuoteMark q = true) (cs : List Char) :
    entryValue (dropComment (q :: cs)) = ofScalar (q :: cs) := by
  have hblock : isTextBlock (q :: cs) = false := by
    have hne : q ≠ '|' ∧ q ≠ '>' := by
      constructor <;> (rintro rfl; exact absurd hq (by decide))
    simp [isTextBlock, hne]
  have hquoted : isQuoted (q :: cs) = true := hq
  unfold dropComment
  rw [if_pos hquoted]
  unfold entryValue
  rw [hblock]
  rfl

/-- **A comment is transparent exactly where it is dropped**: behind a plain value any comment is,
behind a bare key one without a second mark that has a blank in front of it; behind a quoted value
and behind a scalar item no comment is. -/
theorem Commentable.transparent_iff {kind : LineKind} (h : Commentable raw kind) (hraw : '\n' ∉ raw)
    (hcomment : '\n' ∉ comment) : Transparent raw comment ↔ kind.Drops comment := by
  cases h with
  | bare line entry value =>
    have hvalue := dropComment_hash comment
    rw [← trim_commented_of_blank value] at hvalue
    show _ ↔ ¬_
    rw [← upTo_eq_none_iff]
    cases hup : dropComment.upTo (' ' :: comment) with
    | none =>
      refine iff_of_true (fun content content' front behind doc hlines hlines' hdoc => ?_) rfl
      rw [hup] at hvalue
      rwa [line.parse_commented entry (by rw [hvalue, value]; rfl) hlines hlines']
    | some before =>
      refine iff_of_false (line.not_transparent entry hraw hcomment ?_) nofun
      rw [hup, Option.elim_some] at hvalue
      rw [hvalue, value]
      exact (entryValue_hash_ne _).symm
  | plain line entry value =>
    obtain ⟨c, cs, hvalue, hc⟩ := value
    refine iff_of_true (fun content content' front behind doc hlines hlines' hdoc => ?_) trivial
    obtain ⟨rest, hplain, hcommented⟩ := trim_commented hvalue comment
    have hblank := (exists_of_trim hvalue).1
    have hdrop := dropComment_commented hblank hc rest comment
    rw [← hplain, ← hcommented] at hdrop
    rwa [line.parse_commented entry hdrop hlines hlines']
  | quoted line entry value =>
    obtain ⟨q, inside, hvalue, hq⟩ := value
    refine iff_of_false (line.not_transparent entry hraw hcomment ?_) id
    obtain ⟨rest, hplain, hcommented⟩ := trim_commented hvalue comment
    have hblank := (exists_of_trim hvalue).1
    rw [hplain, hcommented, commented_cons, trimEnd_cons hblank, trimEnd_cons hblank,
      entryValue_quoted hq, entryValue_quoted hq, ← trimEnd_cons hblank, ← trimEnd_cons hblank]
    exact (ofScalar_commented_ne (q :: rest) comment).symm
  | item margin_blank gap_blank apart begins scalar =>
    refine iff_of_false (fun htrans => ?_) id
    obtain ⟨c, cs, rfl, hc⟩ := begins
    obtain ⟨content, hlines⟩ := exists_lines hraw (by simp) (.inr rfl)
    obtain ⟨content', hlines'⟩ := exists_lines (feed_not_mem_commented hraw hcomment)
      commented_ne_nil (.inr rfl)
    have hdoc := parse_item margin_blank gap_blank apart ⟨c, cs, rfl, hc⟩ hlines
    have hline := hlines'
    rw [commented_dash] at hline
    have hdoc' := parse_item margin_blank gap_blank apart ⟨c, commented cs comment, rfl, hc⟩ hline
    have hsame := htrans.parse_eq hlines hlines' hdoc hdoc'
    rw [scalar, if_neg Bool.false_ne_true] at hsame
    -- A comment with a colon can make an entry of the item.
    split at hsame
    · have hmap := congrArg map? (by simpa using hsame)
      rw [map?_ofScalar] at hmap
      cases hmap
    · have hvalue : ofScalar (trimEnd (c :: commented cs comment)) =
          ofScalar (trimEnd (c :: cs)) := by
        simpa using hsame.symm
      exact ofScalar_commented_ne (c :: cs) comment hvalue

/-- An image that is pinned, between other lines or none. -/
theorem transparent_iff_pinned : Commentable "    image: nginx:1.25".toList .plain ∧
    Transparent "    image: nginx:1.25".toList "pinned # 2024".toList := by
  have hcut : cutColon "image: nginx:1.25".toList =
      some ("image".toList, " nginx:1.25".toList) := rfl
  obtain ⟨-, -, hfree⟩ := of_cutColon hcut
  have hentry : Entry "image: nginx:1.25".toList "image" " nginx:1.25".toList :=
    .plain rfl (by decide) hfree rfl
  have hline : EntryLine "    image: nginx:1.25".toList 4 "image: nginx:1.25".toList :=
    .own (List.all_eq_true.1 (rfl : [' ', ' ', ' ', ' '].all isBlank = true))
      ⟨'i', _, rfl, by decide, by decide⟩ nofun
  have hplain : Commentable "    image: nginx:1.25".toList .plain :=
    .plain hline hentry ⟨'n', _, rfl, by decide⟩
  exact ⟨hplain, (Commentable.transparent_iff hplain (by decide) (by decide)).2 trivial⟩

/-- Three comments that are not dropped: behind an item, behind a quoted value, and behind a bare
key where the comment has a second mark. -/
theorem comments_kept :
    parse "a:\n  - x\n" = .ok [("a", .seq [.str "x"])] ∧
    parse "a:\n  - x # c\n" = .ok [("a", .seq [.str "x # c"])] ∧
    parse "a: \"v\"\n" = .ok [("a", .str "v")] ∧
    parse "a: \"v\" # c\n" = .ok [("a", .str "\"v\" # c")] ∧
    parse "a:\n" = .ok [("a", .map [])] ∧
    parse "a: # b # c\n" = .ok [("a", .str "# b")] := by
  simp only [parse_eq]
  exact ⟨rfl, rfl, rfl, rfl, rfl, rfl⟩

end DockerSim.Yaml
