import DockerSim.Proofs.Json.Scalars

/-!
# Printed values are read back

A value is printable when its numbers are whole and fit in 64 bits, no part of it is unusable, and
arrays and objects do not stand too deep inside one another. The text over several lines of such a
value is read back as the value, with anything behind it that does not go on with a number.
-/

namespace DockerSim.Json

/-! ## Printable values -/

mutual

/-- The value may be printed with room for so many levels of nesting. -/
def Printable : Nat → Json → Prop
  | _, .null | _, .bool _ | _, .str _ => True
  | _, .int n => FitsNumber n
  | _, .real _ | _, .unusable => False
  | room, .arr items => 0 < room ∧ PrintableItems (room - 1) items
  | room, .obj fields => 0 < room ∧ PrintableFields (room - 1) fields

def PrintableItems : Nat → List Json → Prop
  | _, [] => True
  | room, j :: js => Printable room j ∧ PrintableItems room js

def PrintableFields : Nat → List (String × Json) → Prop
  | _, [] => True
  | room, (_, j) :: fields => Printable room j ∧ PrintableFields room fields

end

mutual

/-- How many values and members a value has. -/
def size : Json → Nat
  | .arr items => 1 + sizeItems items
  | .obj fields => 1 + sizeFields fields
  | _ => 1

def sizeItems : List Json → Nat
  | [] => 0
  | j :: js => 1 + size j + sizeItems js

def sizeFields : List (String × Json) → Nat
  | [] => 0
  | (_, j) :: fields => 1 + size j + sizeFields fields

end

/-! ## The text of a value -/

/-- The start of a line at a level, as characters. -/
def gap (level : Nat) : List Char := '\n' :: List.replicate (2 * level) ' '

theorem toList_lineStart (level : Nat) : (lineStart level).toList = gap level := by
  unfold lineStart gap
  simp

theorem toList_intercalate_cons (sep m : String) (ms : List String) :
    (sep.intercalate (m :: ms)).toList =
      m.toList ++ ms.flatMap fun t => sep.toList ++ t.toList := by
  induction ms generalizing m with
  | nil => simp
  | cons t ms ih =>
    rw [String.intercalate_cons_cons, String.toList_append, String.toList_append, ih]
    simp

theorem toList_bracketed_cons (opening closing : String) (level : Nat) (m : String)
    (ms : List String) :
    (bracketed opening closing level (m :: ms)).toList =
      opening.toList ++ (gap (level + 1) ++ (m.toList ++
        (ms.flatMap fun t => ',' :: (gap (level + 1) ++ t.toList)) ++
          (gap level ++ closing.toList))) := by
  unfold bracketed
  simp only [String.toList_append, toList_intercalate_cons, toList_lineStart, List.append_assoc]
  rfl

theorem prettyItems_eq (level : Nat) :
    ∀ items : List Json, prettyItems level items = items.map (prettyAt level)
  | [] => rfl
  | j :: js => by
    unfold prettyItems
    rw [prettyItems_eq level js]
    rfl

theorem prettyFields_eq (level : Nat) : ∀ fields : List (String × Json),
    prettyFields level fields =
      fields.map fun e => stringText e.1 ++ ": " ++ prettyAt level e.2
  | [] => rfl
  | (k, j) :: fields => by
    unfold prettyFields
    rw [prettyFields_eq level fields]
    rfl

theorem toList_stringText (s : String) :
    (stringText s).toList = '"' :: (s.toList.flatMap escapedChar ++ ['"']) := by
  unfold stringText
  simp

theorem toList_prettyAt_null (level : Nat) :
    (prettyAt level .null).toList = ['n', 'u', 'l', 'l'] := by
  unfold prettyAt
  decide

theorem toList_prettyAt_bool (level : Nat) (b : Bool) :
    (prettyAt level (.bool b)).toList =
      if b then ['t', 'r', 'u', 'e'] else ['f', 'a', 'l', 's', 'e'] := by
  unfold prettyAt
  cases b <;> decide

theorem toList_prettyAt_int (level : Nat) (n : Int) :
    (prettyAt level (.int n)).toList = intText n := by
  unfold prettyAt
  exact String.toList_ofList

theorem toList_prettyAt_str (level : Nat) (s : String) :
    (prettyAt level (.str s)).toList = '"' :: (s.toList.flatMap escapedChar ++ ['"']) := by
  unfold prettyAt
  exact toList_stringText s

/-- The items behind the first one, each on its own line. -/
def itemsBehind (level : Nat) (items : List Json) : List Char :=
  items.flatMap fun j => ',' :: (gap level ++ (prettyAt level j).toList)

theorem toList_prettyAt_nil (level : Nat) : (prettyAt level (.arr [])).toList = ['[', ']'] := by
  rw [prettyAt, prettyItems]
  exact String.toList_append.trans rfl

theorem toList_prettyAt_arr (level : Nat) (j : Json) (js : List Json) :
    (prettyAt level (.arr (j :: js))).toList =
      '[' :: (gap (level + 1) ++ ((prettyAt (level + 1) j).toList ++
        itemsBehind (level + 1) js ++ (gap level ++ [']']))) := by
  rw [prettyAt, prettyItems_eq, List.map_cons, toList_bracketed_cons, List.flatMap_map]
  rfl

/-- The text of a field. -/
def fieldText (level : Nat) (e : String × Json) : List Char :=
  '"' :: (e.1.toList.flatMap escapedChar ++ '"' :: ':' :: ' ' :: (prettyAt level e.2).toList)

/-- The fields behind the first one, each on its own line. -/
def fieldsBehind (level : Nat) (fields : List (String × Json)) : List Char :=
  fields.flatMap fun e => ',' :: (gap level ++ fieldText level e)

theorem toList_field (level : Nat) (e : String × Json) :
    (stringText e.1 ++ ": " ++ prettyAt level e.2).toList = fieldText level e := by
  unfold fieldText
  rw [String.toList_append, String.toList_append, toList_stringText]
  simp

theorem toList_prettyAt_empty (level : Nat) :
    (prettyAt level (.obj [])).toList = ['\x7b', '\x7d'] := by
  rw [prettyAt, prettyFields]
  exact String.toList_append.trans rfl

theorem toList_prettyAt_obj (level : Nat) (e : String × Json) (fields : List (String × Json)) :
    (prettyAt level (.obj (e :: fields))).toList =
      '\x7b' :: (gap (level + 1) ++ (fieldText (level + 1) e ++
        fieldsBehind (level + 1) fields ++ (gap level ++ ['\x7d']))) := by
  rw [prettyAt, prettyFields_eq, List.map_cons, toList_bracketed_cons, List.flatMap_map]
  simp only [toList_field]
  rfl

/-! ## Space between values -/

theorem skipSpace_gap (level : Nat) {c : Char} {cs : List Char} (hc : isSpace c = false) :
    skipSpace (gap level ++ c :: cs) = c :: cs := by
  unfold skipSpace gap
  rw [List.cons_append, List.dropWhile_cons, if_pos (by decide),
    List.dropWhile_append_of_pos (by
      intro d hd
      rw [List.eq_of_mem_replicate hd]
      decide),
    List.dropWhile_cons, hc]
  rfl

theorem skipSpace_cons {c : Char} {cs : List Char} (hc : isSpace c = false) :
    skipSpace (c :: cs) = c :: cs := by
  unfold skipSpace
  rw [List.dropWhile_cons, hc]
  rfl

/-- The character begins a value: it is neither space nor a closing bracket. -/
structure Begins (c : Char) : Prop where
  space : isSpace c = false
  square : c ≠ ']'

theorem begins_digit {c : Char} (h : Chars.isDigit c = true) : Begins c := by
  refine ⟨?_, ?_⟩
  · unfold isSpace
    rw [Bool.eq_false_iff]
    intro hs
    simp only [Bool.or_eq_true, beq_iff_eq] at hs
    rcases hs with ((rfl | rfl) | rfl) | rfl <;> exact absurd h (by decide)
  · rintro rfl
    exact absurd h (by decide)

theorem intText_head (n : Int) :
    ∃ c cs, intText n = c :: cs ∧ Begins c ∧ c ≠ '[' ∧ c ≠ '\x7b' := by
  unfold intText
  split
  · exact ⟨'-', _, rfl, ⟨by decide, by decide⟩, by decide, by decide⟩
  · cases hd : Chars.digits 10 n.natAbs with
    | nil => exact absurd hd (Chars.digits_ne_nil _)
    | cons d ds =>
      have hmem : d ∈ Chars.digits 10 n.natAbs := by simp [hd]
      have hdig := Chars.isDigit_of_mem_digits hmem
      refine ⟨d, ds, rfl, begins_digit hdig, ?_, ?_⟩
      · rintro rfl
        exact absurd hdig (by decide)
      · rintro rfl
        exact absurd hdig (by decide)

/-- A printed value begins with a character that tells arrays and objects from the others. -/
theorem prettyAt_head {room : Nat} (level : Nat) {j : Json} (hj : Printable room j) :
    ∃ c cs, (prettyAt level j).toList = c :: cs ∧ Begins c ∧
      (c = '[' → ∃ items, j = .arr items) ∧ (c = '\x7b' → ∃ fields, j = .obj fields) := by
  cases j with
  | null => exact ⟨'n', _, toList_prettyAt_null level, ⟨by decide, by decide⟩, by simp, by simp⟩
  | bool b =>
    rw [toList_prettyAt_bool]
    cases b with
    | true => exact ⟨'t', _, rfl, ⟨by decide, by decide⟩, by simp, by simp⟩
    | false => exact ⟨'f', _, rfl, ⟨by decide, by decide⟩, by simp, by simp⟩
  | int n =>
    rw [toList_prettyAt_int]
    obtain ⟨c, cs, h, hb, hne⟩ := intText_head n
    exact ⟨c, cs, h, hb, fun hc => absurd hc hne.1, fun hc => absurd hc hne.2⟩
  | str s => exact ⟨'"', _, toList_prettyAt_str level s, ⟨by decide, by decide⟩, by simp, by simp⟩
  | arr items =>
    have hsquare : '[' = '[' → ∃ is, Json.arr items = .arr is := fun _ => ⟨items, rfl⟩
    cases items with
    | nil => exact ⟨'[', _, toList_prettyAt_nil level, ⟨by decide, by decide⟩, hsquare, by simp⟩
    | cons j js =>
      exact ⟨'[', _, toList_prettyAt_arr level j js, ⟨by decide, by decide⟩, hsquare, by simp⟩
  | obj fields =>
    have hcurly : '\x7b' = '\x7b' → ∃ fs, Json.obj fields = .obj fs := fun _ => ⟨fields, rfl⟩
    cases fields with
    | nil =>
      exact ⟨'\x7b', _, toList_prettyAt_empty level, ⟨by decide, by decide⟩, by simp, hcurly⟩
    | cons e fields =>
      exact ⟨'\x7b', _, toList_prettyAt_obj level e fields, ⟨by decide, by decide⟩, by simp,
        hcurly⟩
  | real x => exact absurd hj (by unfold Printable; exact id)
  | unusable => exact absurd hj (by unfold Printable; exact id)

/-! ## Reading -/

section Steps

variable {room fuel : Nat} {cs rest : List Char} {c : Char}

/-- A value that is no array and no object is read as a scalar. -/
theorem readValue_scalar (h : skipSpace cs = c :: rest) (hs : c ≠ '[') (hc : c ≠ '\x7b') :
    readValue room (fuel + 1) cs = readScalar (c :: rest) := by
  unfold readValue
  rw [h]
  split
  · next he => exact absurd (List.cons.inj he).1 hs
  · next he => exact absurd (List.cons.inj he).1 hc
  · next he => exact absurd (List.cons.inj he).1 hs
  · next he => exact absurd (List.cons.inj he).1 hc
  · rfl

theorem readValue_nil (h : skipSpace cs = '[' :: ']' :: rest) :
    readValue (room + 1) (fuel + 1) cs = some (.arr [], rest) := by
  unfold readValue
  rw [h]
  rfl

theorem readValue_arr {behind : List Char} (h : skipSpace cs = '[' :: behind)
    (hb : (skipSpace behind).head? ≠ some ']') :
    readValue (room + 1) (fuel + 1) cs = readItems room fuel [] (skipSpace behind) := by
  unfold readValue
  rw [h]
  simp only
  split
  · next he =>
    rw [he] at hb
    exact absurd rfl hb
  · rfl

theorem readValue_empty (h : skipSpace cs = '\x7b' :: '\x7d' :: rest) :
    readValue (room + 1) (fuel + 1) cs = some (.obj [], rest) := by
  unfold readValue
  rw [h]
  rfl

theorem readValue_obj {behind : List Char} (h : skipSpace cs = '\x7b' :: behind)
    (hb : (skipSpace behind).head? ≠ some '\x7d') :
    readValue (room + 1) (fuel + 1) cs = readFields room fuel [] (skipSpace behind) := by
  unfold readValue
  rw [h]
  simp only
  split
  · next he =>
    rw [he] at hb
    exact absurd rfl hb
  · rfl

theorem readItems_more {j : Json} {done : List Json} {behind : List Char}
    (h : readValue room fuel cs = some (j, behind)) (hb : skipSpace behind = ',' :: rest) :
    readItems room (fuel + 1) done cs = readItems room fuel (j :: done) rest := by
  conv => lhs; unfold readItems
  simp only [h, Option.bind_eq_bind, Option.bind_some, hb]

theorem readItems_last {j : Json} {done : List Json} {behind : List Char}
    (h : readValue room fuel cs = some (j, behind)) (hb : skipSpace behind = ']' :: rest) :
    readItems room (fuel + 1) done cs = some (.arr (j :: done).reverse, rest) := by
  unfold readItems
  simp only [h, Option.bind_eq_bind, Option.bind_some, hb]

theorem readFields_more {s : String} {behind after : List Char} {done : List (Option String × Json)}
    {j : Json} (hs : skipSpace cs = '"' :: (s.toList.flatMap escapedChar ++ '"' :: ':' :: behind))
    (h : readValue room fuel behind = some (j, after)) (ha : skipSpace after = ',' :: rest) :
    readFields room (fuel + 1) done cs = readFields room fuel ((some s, j) :: done) rest := by
  conv => lhs; unfold readFields
  simp only [hs, readString_stringText, Option.bind_eq_bind, Option.bind_some]
  rw [skipSpace_cons (by decide)]
  simp only [h, Option.bind_some, ha]

theorem readFields_last {s : String} {behind after : List Char} {done : List (Option String × Json)}
    {j : Json} (hs : skipSpace cs = '"' :: (s.toList.flatMap escapedChar ++ '"' :: ':' :: behind))
    (h : readValue room fuel behind = some (j, after)) (ha : skipSpace after = '\x7d' :: rest) :
    readFields room (fuel + 1) done cs =
      some (ofFields ((some s, j) :: done).reverse, rest) := by
  unfold readFields
  simp only [hs, readString_stringText, Option.bind_eq_bind, Option.bind_some]
  rw [skipSpace_cons (by decide)]
  simp only [h, Option.bind_some, ha]

end Steps

theorem ends_gap (level : Nat) (cs : List Char) : Ends (gap level ++ cs) :=
  ends_cons (.inr rfl)

theorem ends_itemsBehind (level : Nat) (js : List Json) {cs : List Char} (h : Ends cs) :
    Ends (itemsBehind level js ++ cs) := by
  cases js with
  | nil => exact h
  | cons j js => exact ends_cons (.inl rfl)

theorem ends_fieldsBehind (level : Nat) (fields : List (String × Json)) {cs : List Char}
    (h : Ends cs) : Ends (fieldsBehind level fields ++ cs) := by
  cases fields with
  | nil => exact h
  | cons e fields => exact ends_cons (.inl rfl)

theorem readScalar_pretty {room : Nat} (level : Nat) {j : Json} {rest : List Char}
    (hp : Printable room j) (hr : Ends rest) (harr : ∀ items, j ≠ .arr items)
    (hobj : ∀ fields, j ≠ .obj fields) :
    readScalar ((prettyAt level j).toList ++ rest) = some (j, rest) := by
  cases j with
  | null =>
    rw [toList_prettyAt_null]
    rfl
  | bool b =>
    rw [toList_prettyAt_bool]
    cases b <;> rfl
  | int n =>
    rw [toList_prettyAt_int]
    unfold Printable at hp
    exact readScalar_int hp hr
  | str s =>
    rw [toList_prettyAt_str]
    simp only [List.cons_append, List.append_assoc, List.nil_append]
    show (readString [] _).map _ = _
    rw [readString_stringText]
    rfl
  | arr items => exact absurd rfl (harr items)
  | obj fields => exact absurd rfl (hobj fields)
  | real x => exact absurd hp (by unfold Printable; exact id)
  | unusable => exact absurd hp (by unfold Printable; exact id)

theorem skipSpace_skipSpace (cs : List Char) : skipSpace (skipSpace cs) = skipSpace cs := by
  unfold skipSpace
  induction cs with
  | nil => rfl
  | cons c cs ih =>
    rw [List.dropWhile_cons]
    split
    · exact ih
    · next h => rw [List.dropWhile_cons, if_neg h]

theorem head?_pretty {room : Nat} (level : Nat) {j : Json} (hj : Printable room j)
    (behind : List Char) : ((prettyAt level j).toList ++ behind).head? ≠ some ']' := by
  obtain ⟨c, cs, h, hb, -⟩ := prettyAt_head level hj
  rw [h, List.cons_append, List.head?_cons, ne_eq, Option.some.injEq]
  exact hb.square

/-- Space in front of a printed value is passed over. -/
theorem skipSpace_pretty {room : Nat} (above level : Nat) {j : Json} (hj : Printable room j)
    (rest : List Char) : skipSpace (gap above ++ ((prettyAt level j).toList ++ rest)) =
      (prettyAt level j).toList ++ rest := by
  obtain ⟨c, cs, h, hb, -⟩ := prettyAt_head level hj
  rw [h]
  exact skipSpace_gap above hb.space

theorem pos_of_size {j : Json} {fuel : Nat} (h : size j ≤ fuel) : ∃ n, fuel = n + 1 := by
  refine ⟨fuel - 1, ?_⟩
  cases j <;> unfold size at h <;> omega

/-- Fields whose keys are texts make an object. -/
theorem ofFields_some (fields : List (String × Json)) :
    ofFields (fields.map fun e => (some e.1, e.2)) = .obj fields := by
  unfold ofFields
  rw [List.mapM_map]
  have h : fields.mapM (fun e => some (e.1, e.2)) = some fields := by
    induction fields with
    | nil => rfl
    | cons e fields ih => rw [List.mapM_cons, ih]; rfl
  erw [h]

theorem itemsBehind_cons (level : Nat) (j : Json) (js : List Json) (behind : List Char) :
    itemsBehind level (j :: js) ++ behind =
      ',' :: (gap level ++ ((prettyAt level j).toList ++ (itemsBehind level js ++ behind))) := by
  unfold itemsBehind
  simp

theorem fieldsBehind_cons (level : Nat) (e : String × Json) (fields : List (String × Json))
    (behind : List Char) :
    fieldsBehind level (e :: fields) ++ behind =
      ',' :: (gap level ++ (fieldText level e ++ (fieldsBehind level fields ++ behind))) := by
  unfold fieldsBehind
  simp

theorem fieldText_append (level : Nat) (k : String) (j : Json) (behind : List Char) :
    fieldText level (k, j) ++ behind =
      '"' :: (k.toList.flatMap escapedChar ++
        '"' :: ':' :: (' ' :: ((prettyAt level j).toList ++ behind))) := by
  unfold fieldText
  simp

/-- With so much fuel, printed values are read back. -/
def ReadsValue (fuel : Nat) : Prop :=
  ∀ (j : Json) (room level : Nat) (cs rest : List Char), Printable room j → size j ≤ fuel →
    skipSpace cs = (prettyAt level j).toList ++ rest → Ends rest →
      readValue room fuel cs = some (j, rest)

/-- With so much fuel, the rest of a printed array is read back. -/
def ReadsItems (fuel : Nat) : Prop :=
  ∀ (j : Json) (js done : List Json) (room level above : Nat) (cs rest : List Char),
    Printable room j → PrintableItems room js → sizeItems (j :: js) ≤ fuel →
      skipSpace cs =
        (prettyAt level j).toList ++ (itemsBehind level js ++ (gap above ++ ']' :: rest)) →
      readItems room fuel done cs = some (.arr (done.reverse ++ j :: js), rest)

/-- With so much fuel, the rest of a printed object is read back. -/
def ReadsFields (fuel : Nat) : Prop :=
  ∀ (k : String) (j : Json) (fields done : List (String × Json)) (room level above : Nat)
    (cs rest : List Char), Printable room j → PrintableFields room fields →
      sizeFields ((k, j) :: fields) ≤ fuel →
      skipSpace cs = fieldText level (k, j) ++
        (fieldsBehind level fields ++ (gap above ++ '\x7d' :: rest)) →
      readFields room fuel (done.map fun e => (some e.1, e.2)) cs =
        some (.obj (done.reverse ++ (k, j) :: fields), rest)

theorem readsItems_succ {fuel : Nat} (hv : ReadsValue fuel) (hi : ReadsItems fuel) :
    ReadsItems (fuel + 1) := by
  intro j js done room level above cs rest hj hjs hsize hs
  rw [sizeItems] at hsize
  have hread := hv j room level cs _ hj (by omega) hs (ends_itemsBehind level js (ends_gap above _))
  cases js with
  | nil =>
    rw [readItems_last hread (skipSpace_gap above (by decide)), List.reverse_cons]
  | cons j' js =>
    rw [PrintableItems] at hjs
    rw [itemsBehind_cons] at hread
    rw [readItems_more hread (skipSpace_cons (by decide)),
      hi j' js (j :: done) room level above _ rest hjs.1 hjs.2 (by omega)
        (skipSpace_pretty level level hjs.1 _)]
    simp

theorem readsFields_succ {fuel : Nat} (hv : ReadsValue fuel) (hf : ReadsFields fuel) :
    ReadsFields (fuel + 1) := by
  intro k j fields done room level above cs rest hj hfields hsize hs
  rw [sizeFields] at hsize
  rw [fieldText_append] at hs
  obtain ⟨c, cs', hc, hb, -⟩ := prettyAt_head level hj
  have hskip : skipSpace (' ' :: ((prettyAt level j).toList ++
      (fieldsBehind level fields ++ (gap above ++ '\x7d' :: rest)))) =
      (prettyAt level j).toList ++
        (fieldsBehind level fields ++ (gap above ++ '\x7d' :: rest)) := by
    rw [hc]
    exact skipSpace_cons hb.space
  have hread := hv j room level _ _ hj (by omega) hskip
    (ends_fieldsBehind level fields (ends_gap above _))
  cases fields with
  | nil =>
    rw [readFields_last hs hread (skipSpace_gap above (by decide)),
      ← ofFields_some (done.reverse ++ [(k, j)])]
    simp
  | cons e fields =>
    obtain ⟨k', j'⟩ := e
    rw [PrintableFields] at hfields
    rw [fieldsBehind_cons] at hs hread
    have hnext := hf k' j' fields ((k, j) :: done) room level above
      (gap level ++ (fieldText level (k', j') ++
        (fieldsBehind level fields ++ (gap above ++ '\x7d' :: rest)))) rest
      hfields.1 hfields.2 (by omega) (skipSpace_gap level (by decide))
    rw [readFields_more hs hread (skipSpace_cons (by decide))]
    rw [List.map_cons] at hnext
    rw [hnext]
    simp

/-- A value that is no array and no object is read back by one step. -/
theorem readValue_pretty_scalar {j : Json} {room level fuel : Nat} {cs rest : List Char}
    (hp : Printable room j) (hs : skipSpace cs = (prettyAt level j).toList ++ rest)
    (hr : Ends rest) (harr : ∀ items, j ≠ .arr items) (hobj : ∀ fields, j ≠ .obj fields) :
    readValue room (fuel + 1) cs = some (j, rest) := by
  obtain ⟨c, cs', hc, -, hsquare, hcurly⟩ := prettyAt_head level hp
  have hread := readScalar_pretty level hp hr harr hobj
  rw [hc] at hs hread
  rw [readValue_scalar hs ?_ ?_]
  · exact hread
  · intro h
    obtain ⟨items, hj⟩ := hsquare h
    exact harr items hj
  · intro h
    obtain ⟨fields, hj⟩ := hcurly h
    exact hobj fields hj

theorem readValue_pretty_arr {items : List Json} {room level fuel : Nat} {cs rest : List Char}
    (hi : ReadsItems fuel) (hp : Printable room (.arr items))
    (hsize : size (.arr items) ≤ fuel + 1)
    (hs : skipSpace cs = (prettyAt level (.arr items)).toList ++ rest) :
    readValue room (fuel + 1) cs = some (.arr items, rest) := by
  rw [Printable] at hp
  obtain ⟨room, rfl⟩ : ∃ n, room = n + 1 := ⟨room - 1, by omega⟩
  cases items with
  | nil =>
    rw [toList_prettyAt_nil] at hs
    exact readValue_nil hs
  | cons j js =>
    rw [Nat.add_sub_cancel, PrintableItems] at hp
    rw [size] at hsize
    rw [toList_prettyAt_arr] at hs
    simp only [List.cons_append, List.append_assoc, List.nil_append] at hs
    have hskip := skipSpace_pretty (level + 1) (level + 1) hp.2.1
      (itemsBehind (level + 1) js ++ (gap level ++ ']' :: rest))
    rw [readValue_arr hs (by rw [hskip]; exact head?_pretty _ hp.2.1 _)]
    exact hi j js [] room (level + 1) level _ rest hp.2.1 hp.2.2 (by omega)
      ((skipSpace_skipSpace _).trans hskip)

theorem readValue_pretty_obj {fields : List (String × Json)} {room level fuel : Nat}
    {cs rest : List Char} (hf : ReadsFields fuel) (hp : Printable room (.obj fields))
    (hsize : size (.obj fields) ≤ fuel + 1)
    (hs : skipSpace cs = (prettyAt level (.obj fields)).toList ++ rest) :
    readValue room (fuel + 1) cs = some (.obj fields, rest) := by
  rw [Printable] at hp
  obtain ⟨room, rfl⟩ : ∃ n, room = n + 1 := ⟨room - 1, by omega⟩
  cases fields with
  | nil =>
    rw [toList_prettyAt_empty] at hs
    exact readValue_empty hs
  | cons e fields =>
    obtain ⟨k, j⟩ := e
    rw [Nat.add_sub_cancel, PrintableFields] at hp
    rw [size] at hsize
    rw [toList_prettyAt_obj] at hs
    simp only [List.cons_append, List.append_assoc, List.nil_append] at hs
    have hskip : skipSpace (gap (level + 1) ++ (fieldText (level + 1) (k, j) ++
        (fieldsBehind (level + 1) fields ++ (gap level ++ '\x7d' :: rest)))) = _ :=
      skipSpace_gap (level + 1) (by decide)
    rw [readValue_obj hs (by rw [hskip]; simp)]
    exact hf k j fields [] room (level + 1) level _ rest hp.2.1 hp.2.2 (by omega)
      ((skipSpace_skipSpace _).trans hskip)

theorem readsValue_succ {fuel : Nat} (hi : ReadsItems fuel) (hf : ReadsFields fuel) :
    ReadsValue (fuel + 1) := by
  intro j room level cs rest hp hsize hs hr
  cases j with
  | arr items => exact readValue_pretty_arr hi hp hsize hs
  | obj fields => exact readValue_pretty_obj hf hp hsize hs
  | null => exact readValue_pretty_scalar hp hs hr (by simp) (by simp)
  | bool b => exact readValue_pretty_scalar hp hs hr (by simp) (by simp)
  | int n => exact readValue_pretty_scalar hp hs hr (by simp) (by simp)
  | str s => exact readValue_pretty_scalar hp hs hr (by simp) (by simp)
  | real x => exact readValue_pretty_scalar hp hs hr (by simp) (by simp)
  | unusable => exact readValue_pretty_scalar hp hs hr (by simp) (by simp)

/-- Induction on the fuel: every step of the reader hands on less. -/
theorem reads_all : ∀ fuel, ReadsValue fuel ∧ ReadsItems fuel ∧ ReadsFields fuel
  | 0 => by
    refine ⟨?_, ?_, ?_⟩
    · intro j _ _ _ _ _ hsize
      obtain ⟨n, hn⟩ := pos_of_size hsize
      cases hn
    · intro j js _ _ _ _ _ _ _ _ hsize
      rw [sizeItems] at hsize
      omega
    · intro k j fields _ _ _ _ _ _ _ _ hsize
      rw [sizeFields] at hsize
      omega
  | fuel + 1 => by
    obtain ⟨hv, hi, hf⟩ := reads_all fuel
    exact ⟨readsValue_succ hi hf, readsItems_succ hv hi, readsFields_succ hv hf⟩

/-! ## Texts are long enough -/

theorem pos_length_pretty {room : Nat} (level : Nat) {j : Json} (hj : Printable room j) :
    1 ≤ (prettyAt level j).toList.length := by
  obtain ⟨c, cs, h, -⟩ := prettyAt_head level hj
  rw [h, List.length_cons]
  omega

mutual

theorem size_le_length : ∀ (j : Json) (room level : Nat), Printable room j →
    size j ≤ (prettyAt level j).toList.length
  | .arr [], _, level, _ => by
    rw [toList_prettyAt_nil, size, sizeItems]
    decide
  | .arr (j :: js), room, level, hj => by
    rw [Printable, PrintableItems] at hj
    have h1 := size_le_length j (room - 1) (level + 1) hj.2.1
    have h2 := sizeItems_le_length js (room - 1) (level + 1) hj.2.2
    rw [toList_prettyAt_arr, size, sizeItems]
    simp only [gap, List.length_cons, List.length_append]
    omega
  | .obj [], _, level, _ => by
    rw [toList_prettyAt_empty, size, sizeFields]
    decide
  | .obj ((k, j) :: fields), room, level, hj => by
    rw [Printable, PrintableFields] at hj
    have h1 := size_le_length j (room - 1) (level + 1) hj.2.1
    have h2 := sizeFields_le_length fields (room - 1) (level + 1) hj.2.2
    rw [toList_prettyAt_obj, size, sizeFields]
    simp only [gap, fieldText, List.length_cons, List.length_append]
    omega
  | .null, _, level, hj | .bool _, _, level, hj | .int _, _, level, hj
  | .str _, _, level, hj | .real _, _, level, hj | .unusable, _, level, hj =>
    pos_length_pretty level hj

theorem sizeItems_le_length : ∀ (js : List Json) (room level : Nat), PrintableItems room js →
    sizeItems js ≤ (itemsBehind level js).length
  | [], _, _, _ => Nat.zero_le _
  | j :: js, room, level, hj => by
    rw [PrintableItems] at hj
    have h1 := size_le_length j room level hj.1
    have h2 := sizeItems_le_length js room level hj.2
    have h3 := itemsBehind_cons level j js []
    rw [List.append_nil] at h3
    rw [h3, sizeItems]
    simp only [List.length_cons, List.length_append, List.append_nil]
    omega

theorem sizeFields_le_length : ∀ (fields : List (String × Json)) (room level : Nat),
    PrintableFields room fields → sizeFields fields ≤ (fieldsBehind level fields).length
  | [], _, _, _ => Nat.zero_le _
  | (k, j) :: fields, room, level, hj => by
    rw [PrintableFields] at hj
    have h1 := size_le_length j room level hj.1
    have h2 := sizeFields_le_length fields room level hj.2
    have h3 := fieldsBehind_cons level (k, j) fields []
    rw [List.append_nil] at h3
    rw [h3, sizeFields]
    simp only [fieldText, List.length_cons, List.length_append, List.append_nil]
    omega

end

/-- The text of a value that is not nested too deep is read back as the value. -/
theorem ofText?_pretty {j : Json} (hj : Printable maxDepth j) : ofText? j.pretty = some j := by
  have hsize := size_le_length j maxDepth 0 hj
  obtain ⟨c, cs, hc, hb, -⟩ := prettyAt_head 0 hj
  have hskip : skipSpace j.pretty.toList = (prettyAt 0 j).toList ++ [] := by
    rw [List.append_nil]
    unfold pretty
    rw [hc]
    exact skipSpace_cons hb.space
  have hread := (reads_all (j.pretty.toList.length + 1)).1 j maxDepth 0 _ []
    hj (by unfold pretty; omega) hskip ends_nil
  unfold ofText?
  simp only [hread]
  rfl

end DockerSim.Json
