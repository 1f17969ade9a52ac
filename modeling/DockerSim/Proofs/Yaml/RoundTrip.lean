import DockerSim.Proofs.Yaml.Layout

/-!
# Reading back a layout

The document of a layable mapping is read as the mapping, whatever its strings look like and however
deep it is (`parse_document`).

After the rows of a collection some of its blocks are still open: they are closed by the next row to
the left of them, or at the end. So what is said about a run over rows is that the outline it leads
to and the outline in which the collection is a finished value are the `Same` for the rows that can
come next. A collection is read by induction on the tree: its first row opens a block in the place
that the row before has prepared (`Opens`), and the rows of each entry or item leave the block as it
is with that entry or item in it.
-/

namespace DockerSim.Yaml

/-! ## Runs over rows -/

/-- The outlines come to the same, now and after any row with the property. -/
structure Same (P : Row → Prop) (o o' : Outline) : Prop where
  step : ∀ n r, P r → o.step (r.line n) = o'.step (r.line n)
  close : o.close = o'.close

/-- Reading the rows leads from `o` to an outline that comes to the same as `o'`. -/
def Leads (P : Row → Prop) (o : Outline) (rows : List Row) (o' : Outline) : Prop :=
  ∀ n, ∃ r, (numbered n rows).foldlM Outline.step o = .ok r ∧ Same P r o'

/-- A row in the column opens a new block inside `o'`. -/
def Opens (column : Nat) (o o' : Outline) : Prop :=
  ∀ n, ∀ r : Row, r.column = column → o.step (r.line n) = .ok (o'.opened (r.line n))

section Runs

variable {P Q : Row → Prop} {o o₁ o₂ : Outline} {rows rows' : List Row} {r : Row}

theorem Same.refl (o : Outline) : Same P o o := ⟨fun _ _ _ => rfl, rfl⟩

theorem Same.trans (h : Same P o o₁) (h' : Same P o₁ o₂) : Same P o o₂ :=
  ⟨fun n r hr => (h.step n r hr).trans (h'.step n r hr), h.close.trans h'.close⟩

theorem Same.mono (h : Same P o o₁) (hQ : ∀ r, Q r → P r) : Same Q o o₁ :=
  ⟨fun n r hr => h.step n r (hQ r hr), h.close⟩

theorem Same.leads (h : Same P o o₁) : Leads P o [] o₁ := fun _ => ⟨o, rfl, h⟩

theorem Leads.mono (h : Leads P o rows o₁) (hQ : ∀ r, Q r → P r) : Leads Q o rows o₁ := fun n => by
  obtain ⟨r, hr, hsame⟩ := h n
  exact ⟨r, hr, hsame.mono hQ⟩

theorem Leads.trans_same (h : Leads P o rows o₁) (hsame : Same P o₁ o₂) : Leads P o rows o₂ :=
  fun n => by
    obtain ⟨r, hr, hr'⟩ := h n
    exact ⟨r, hr, hr'.trans hsame⟩

theorem Leads.cons (hr : ∀ n, o.step (r.line n) = .ok o₁) (h : Leads P o₁ rows o₂) :
    Leads P o (r :: rows) o₂ := fun n => by
  obtain ⟨o', ho', hsame⟩ := h (n + 1)
  refine ⟨o', ?_, hsame⟩
  rw [numbered, List.foldlM_cons, hr]
  exact ho'

theorem Leads.single (hr : ∀ n, o.step (r.line n) = .ok o₁) : Leads P o [r] o₁ :=
  Leads.cons hr (Same.refl _).leads

/-- Rows are read in the same way from where their first one makes no difference. -/
theorem Leads.start (hr : ∀ n, o.step (r.line n) = o₁.step (r.line n))
    (h : Leads P o₁ (r :: rows) o₂) : Leads P o (r :: rows) o₂ := fun n => by
  obtain ⟨o', ho', hsame⟩ := h n
  refine ⟨o', ?_, hsame⟩
  rw [numbered, List.foldlM_cons] at ho' ⊢
  rw [hr, ho']

theorem numbered_append : ∀ (rows : List Row) (n : Nat),
    numbered n (rows ++ rows') = numbered n rows ++ numbered (n + rows.length) rows'
  | [], n => rfl
  | r :: rows, n => by
    rw [List.cons_append, numbered, numbered, numbered_append rows, List.length_cons,
      List.cons_append, Nat.add_assoc, Nat.add_comm 1]

/-- Two runs make one, when the first row of the second is one for which the outlines between them
come to the same. -/
theorem Leads.append (h : Leads P o rows o₁) (h' : Leads Q o₁ rows' o₂)
    (hfirst : ∀ r ∈ rows'.head?, P r) (hQ : ∀ r, Q r → P r) : Leads Q o (rows ++ rows') o₂ := by
  intro n
  obtain ⟨s, hs, hsame⟩ := h n
  have hrest : Leads Q s rows' o₂ := by
    cases rows' with
    | nil =>
      intro n
      obtain ⟨t, ht, hsame'⟩ := h' n
      cases ht
      exact ⟨s, rfl, (hsame.mono hQ).trans hsame'⟩
    | cons r rows' => exact h'.start fun n => hsame.step n r (hfirst r rfl)
  obtain ⟨t, ht, hsame'⟩ := hrest (n + rows.length)
  refine ⟨t, ?_, hsame'⟩
  rw [numbered_append, List.foldlM_append, hs]
  exact ht

end Runs

/-! ## Entries and items -/

/-- Rows to the left of a column. -/
def Left (column : Nat) (r : Row) : Prop := r.column < column

/-- Rows that a mapping in the column takes as an entry, or leaves. -/
def EntryOrLeft (column : Nat) (r : Row) : Prop :=
  r.column < column ∨ r.column = column ∧ isItem r.text = false

/-- Rows that a sequence in the column takes as an item, or leaves. -/
def ItemOrLeft (column : Nat) (r : Row) : Prop :=
  r.column < column ∨ r.column = column ∧ isItem r.text = true

variable {k column : Nat} {v : Yaml} {o o' : Outline}

theorem Left.of_deeper {P : Row → Prop} (hk : 0 < k)
    (hP : ∀ r, P r → r.column ≤ column) : ∀ r, P r → Left (column + k) r := fun r hr => by
  have := hP r hr
  show r.column < column + k
  omega

theorem EntryOrLeft.le {r : Row} (h : EntryOrLeft column r) : r.column ≤ column := by
  rcases h with h | ⟨h, -⟩ <;> omega

theorem ItemOrLeft.le {r : Row} (h : ItemOrLeft column r) : r.column ≤ column := by
  rcases h with h | ⟨h, -⟩ <;> omega

/-- The rows of a value begin in its column with its key or dash. -/
theorem head_valueRows (k column : Nat) (lead : List Char) (v : Yaml) :
    ∃ r rest, valueRows k column lead v = r :: rest ∧ r.column = column ∧
      ∃ behind, r.text = lead ++ behind ∧ (behind = [] ∨ behind.head? = some ' ') := by
  cases v with
  | seq items => exact ⟨_, _, by rw [valueRows], rfl, [], (List.append_nil _).symm, .inl rfl⟩
  | map entries => exact ⟨_, _, by rw [valueRows], rfl, [], (List.append_nil _).symm, .inl rfl⟩
  | _ => exact ⟨_, _, by rw [valueRows] <;> simp, rfl, _, rfl, .inr rfl⟩

theorem head_entryRows {entries : YamlMap} :
    ∀ r ∈ (entryRows k column entries).head?, r.column = column ∧ isItem r.text = false := by
  cases entries with
  | nil => exact fun r hr => by simp [entryRows] at hr
  | cons e entries =>
    obtain ⟨r, rest, hrows, hcolumn, behind, htext, -⟩ :=
      head_valueRows k column (quoted e.1 ++ [':']) e.2
    intro r' hr'
    rw [entryRows, hrows] at hr'
    cases hr'
    rw [htext]
    exact ⟨hcolumn, rfl⟩

theorem head_itemRows {items : List Yaml} :
    ∀ r ∈ (itemRows k column items).head?, r.column = column ∧ isItem r.text = true := by
  cases items with
  | nil => exact fun r hr => by simp [itemRows] at hr
  | cons v items =>
    obtain ⟨r, rest, hrows, hcolumn, behind, htext, hbehind⟩ :=
      head_valueRows k column ['-'] v
    intro r' hr'
    rw [itemRows, hrows] at hr'
    cases hr'
    rw [htext]
    refine ⟨hcolumn, ?_⟩
    rcases hbehind with rfl | hbehind
    · rfl
    · obtain ⟨rest, rfl⟩ := List.head?_eq_some_iff.1 hbehind
      rfl

theorem insert_of_not_mem {m : YamlMap} {key : String} (h : key ∉ m.keys) :
    m.insert key v = m ++ [(key, v)] := by
  induction m with
  | nil => rfl
  | cons e m ih =>
    obtain ⟨hne, hrest⟩ := not_or.1 fun hmem => h (List.mem_cons.2 hmem)
    rw [YamlMap.insert, if_neg (Ne.symm hne), ih hrest]
    rfl

/-! ### What a row does to a block -/

section Add

variable {m : OpenMapping} {s : OpenSequence} {key : String} {t : List Char}

theorem add_scalar (hgap : m.gap = .none) (hkey : Quotable key) (hnew : key ∉ m.entries.keys)
    (h : Reads t v) : m.add (quoted key ++ [':'] ++ ' ' :: t) =
      { m with entries := m.entries ++ [(key, v)], gap := .none } := by
  have hclose : m.close = m.entries := by rw [OpenMapping.close, hgap]
  have hempty : t.isEmpty = false := List.isEmpty_eq_false_iff.2 h.ne_nil
  unfold OpenMapping.add
  rw [splitEntry_scalar hkey h, hclose, ← insert_of_not_mem hnew]
  dsimp only
  rw [hempty, h.block, h.value]
  rfl

theorem add_lead (hgap : m.gap = .none) (hkey : Quotable key) :
    m.add (quoted key ++ [':']) = { m with gap := .value key } := by
  have hclose : m.close = m.entries := by rw [OpenMapping.close, hgap]
  unfold OpenMapping.add
  rw [splitEntry_lead hkey, hclose]
  rfl

theorem add_item (hgap : s.gap = false) (h : Reads t v) :
    s.add (['-'] ++ ' ' :: t) = ({ s with items := s.items ++ [v], gap := false }, none) := by
  obtain ⟨column, items, gap⟩ := s
  subst hgap
  have hempty : t.isEmpty = false := List.isEmpty_eq_false_iff.2 h.ne_nil
  have htrim : Chars.trimStart ((['-'] ++ ' ' :: t).drop 1) = t := by
    obtain ⟨c, cs, rfl, hc, -⟩ := h.begins
    exact Chars.trimStart_cons hc
  rw [OpenSequence.add_scalar (by rw [htrim, hempty]; exact Bool.false_ne_true)
    (by rw [htrim, h.item]; exact Bool.false_ne_true), htrim, h.value]

theorem add_dash (hgap : s.gap = false) : s.add ['-'] = ({ s with gap := true }, none) := by
  obtain ⟨column, items, gap⟩ := s
  subst hgap
  exact OpenSequence.add_bareDash rfl

end Add

/-! ### Reading entries and items -/

/-- What stands inside a value is read as the value, wherever a block is opened for it. -/
def ReadInside (k : Nat) (v : Yaml) : Prop :=
  ∀ ⦃column o o'⦄, insideRows k column v ≠ [] → Opens column o o' →
    Leads (Left column) o (insideRows k column v) (o'.give v)

/-- A value is a scalar or an empty mapping, or there are rows inside it. -/
theorem Layable.shape (h : Layable v) (k column : Nat) (lead : List Char) :
    Scalar v ∨ v = .map [] ∨
      insideRows k (column + k) v ≠ [] ∧
        valueRows k column lead v = ⟨column, lead⟩ :: insideRows k (column + k) v := by
  cases h with
  | scalar h => exact .inl h
  | @seq items nonempty _ _ =>
    obtain ⟨w, items, rfl⟩ := List.exists_cons_of_ne_nil nonempty
    obtain ⟨r, rest, hrows, -⟩ := head_valueRows k (column + k) ['-'] w
    refine .inr (.inr ⟨?_, by rw [valueRows]; rfl⟩)
    show itemRows k (column + k) (w :: items) ≠ []
    rw [itemRows, hrows]
    exact List.cons_ne_nil _ _
  | @map entries _ _ _ =>
    cases entries with
    | nil => exact .inr (.inl rfl)
    | cons e entries =>
      obtain ⟨r, rest, hrows, -⟩ :=
        head_valueRows k (column + k) (quoted e.1 ++ [':']) e.2
      refine .inr (.inr ⟨?_, by rw [valueRows]; rfl⟩)
      show entryRows k (column + k) (e :: entries) ≠ []
      rw [entryRows, hrows]
      exact List.cons_ne_nil _ _

/-- A key without a value comes to the same as one with an empty mapping. -/
theorem same_empty {seat : Seat} {m : OpenMapping} {key : String} (hgap : m.gap = .value key) :
    Same (EntryOrLeft m.column) (seat.put m) (seat.put (m.give (.map []))) := by
  have hgive : m.give (.map []) =
      { m with entries := m.entries.insert key (.map []), gap := .none } := by
    rw [OpenMapping.give, hgap]
  have hclose : m.close = (m.give (.map [])).close := by
    rw [hgive, OpenMapping.close, hgap]
    rfl
  refine ⟨fun n r hr => ?_, Seat.close_put hclose⟩
  have haligned : ¬(r.column = m.column ∧ isItem r.text = true) := by
    rintro ⟨hcolumn, hitem⟩
    rcases hr with hleft | ⟨-, hentry⟩
    · omega
    · rw [hitem] at hentry
      cases hentry
  refine Seat.step_settled ?_ ?_ hclose (Nat.not_lt.2 hr.le) (.inr haligned)
  · rw [hgive]
  · rw [hgive]

/-- The rows of an entry add the entry. -/
theorem leads_entry (hk : 0 < k) {seat : Seat} {done : YamlMap} {key : String}
    (hkey : Quotable key) (hnew : key ∉ done.keys) (hv : Layable v) (ih : ReadInside k v) :
    Leads (EntryOrLeft column) (seat.put ⟨column, done, .none⟩)
      (valueRows k column (quoted key ++ [':']) v)
      (seat.put ⟨column, done ++ [(key, v)], .none⟩) := by
  have hlead : ∀ n, (seat.put ⟨column, done, .none⟩).step
      (Row.line n ⟨column, quoted key ++ [':']⟩) = .ok (seat.put ⟨column, done, .value key⟩) := by
    intro n
    rw [Seat.step_add (OpenMapping.place_beside rfl rfl)]
    exact congrArg (fun m => Except.ok (seat.put m))
      (add_lead (m := ⟨column, done, .none⟩) rfl hkey)
  have hgive : OpenMapping.give ⟨column, done, .value key⟩ v =
      ⟨column, done ++ [(key, v)], .none⟩ := by
    simp only [OpenMapping.give, insert_of_not_mem hnew]
  rcases hv.shape k column (quoted key ++ [':']) with h | rfl | ⟨hne, hrows⟩
  · rw [valueRows_scalar h]
    refine Leads.single fun n => ?_
    rw [Seat.step_add (OpenMapping.place_beside rfl rfl)]
    exact congrArg (fun m => Except.ok (seat.put m))
      (add_scalar (m := ⟨column, done, .none⟩) rfl hkey hnew h.reads)
  · rw [valueRows, entryRows]
    refine Leads.cons hlead (Same.leads ?_)
    rw [← hgive]
    exact same_empty (m := ⟨column, done, .value key⟩) rfl
  · rw [hrows]
    refine Leads.cons hlead ?_
    have hopens : Opens (column + k) (seat.put ⟨column, done, .value key⟩)
        (seat.put ⟨column, done, .value key⟩) := by
      intro n r hr
      refine Seat.step_nest (OpenMapping.place_below rfl ?_)
      show column < r.column
      omega
    rw [← hgive, ← Seat.give_put]
    exact (ih hne hopens).mono (Left.of_deeper hk fun _ => EntryOrLeft.le)

/-- The rows of an item add the item. -/
theorem leads_item (hk : 0 < k) {done : List Yaml} (hv : Layable v) (hfull : v ≠ .map [])
    (ih : ReadInside k v) :
    Leads (ItemOrLeft column) (o.push (.sequence ⟨column, done, false⟩))
      (valueRows k column ['-'] v) (o.push (.sequence ⟨column, done ++ [v], false⟩)) := by
  rcases hv.shape k column ['-'] with h | rfl | ⟨hne, hrows⟩
  · rw [valueRows_scalar h]
    exact Leads.single fun n => Outline.step_push_item (OpenSequence.place_beside rfl rfl)
      (add_item rfl h.reads)
  · exact absurd rfl hfull
  · have hdash : ∀ n, (o.push (.sequence ⟨column, done, false⟩)).step (Row.line n ⟨column, ['-']⟩) =
        .ok (o.push (.sequence ⟨column, done, true⟩)) := fun n =>
      Outline.step_push_item (OpenSequence.place_beside rfl rfl) (add_dash rfl)
    have hopens : Opens (column + k) (o.push (.sequence ⟨column, done, true⟩))
        (o.push (.sequence ⟨column, done, false⟩)) := by
      intro n r hr
      refine Outline.step_push_nest (b := .sequence _) (OpenSequence.place_below rfl ?_)
      show column < r.column
      omega
    rw [hrows]
    exact Leads.cons hdash ((ih hne hopens).mono (Left.of_deeper hk fun _ => ItemOrLeft.le))

/-- **The rows of a mapping add its entries**, one after the other. -/
theorem leads_entries (hk : 0 < k) (seat : Seat) : ∀ {entries done : YamlMap},
    (done ++ entries).keys.Nodup → (∀ e ∈ entries, Quotable e.1) →
    (∀ e ∈ entries, Layable e.2) → (∀ e ∈ entries, ReadInside k e.2) →
    Leads (EntryOrLeft column) (seat.put ⟨column, done, .none⟩) (entryRows k column entries)
      (seat.put ⟨column, done ++ entries, .none⟩)
  | [], done, _, _, _, _ => by
    rw [entryRows, List.append_nil]
    exact (Same.refl _).leads
  | (key, v) :: entries, done, distinct, quotable, layable, ih => by
    obtain ⟨hkey, hkeys⟩ := List.forall_mem_cons.1 quotable
    obtain ⟨hv, hvs⟩ := List.forall_mem_cons.1 layable
    obtain ⟨ihv, ihvs⟩ := List.forall_mem_cons.1 ih
    have hsplit : done ++ (key, v) :: entries = done ++ [(key, v)] ++ entries := by simp
    have hnew : key ∉ done.keys := by
      intro hmem
      unfold YamlMap.keys at distinct hmem
      rw [List.map_append, List.map_cons] at distinct
      exact (List.nodup_append.1 distinct).2.2 key hmem key List.mem_cons_self rfl
    rw [hsplit] at distinct
    rw [entryRows, hsplit]
    exact (leads_entry hk hkey hnew hv ihv).append
      (leads_entries hk seat distinct hkeys hvs ihvs) (fun r hr => .inr (head_entryRows r hr))
      fun _ hr => hr

/-- **The rows of a sequence add its items**, one after the other. -/
theorem leads_items (hk : 0 < k) : ∀ {items done : List Yaml},
    Yaml.map [] ∉ items → (∀ v ∈ items, Layable v) → (∀ v ∈ items, ReadInside k v) →
    Leads (ItemOrLeft column) (o.push (.sequence ⟨column, done, false⟩)) (itemRows k column items)
      (o.push (.sequence ⟨column, done ++ items, false⟩))
  | [], done, _, _, _ => by
    rw [itemRows, List.append_nil]
    exact (Same.refl _).leads
  | v :: items, done, full, layable, ih => by
    obtain ⟨hv, hvs⟩ := List.forall_mem_cons.1 layable
    obtain ⟨ihv, ihvs⟩ := List.forall_mem_cons.1 ih
    obtain ⟨hfull, hfulls⟩ := not_or.1 fun hmem => full (List.mem_cons.2 hmem)
    have hsplit : done ++ v :: items = done ++ [v] ++ items := by simp
    rw [itemRows, hsplit]
    exact (leads_item hk hv (Ne.symm hfull) ihv).append (leads_items hk hfulls hvs ihvs)
      (fun r hr => .inr (head_itemRows r hr)) fun _ hr => hr

/-! ## Trees -/

/-- A row that opens a block is read as the first entry or item of an empty one. -/
theorem Opens.entry (h : Opens column o o') {r : Row} (hcolumn : r.column = column)
    (hitem : isItem r.text = false) (n : Nat) :
    o.step (r.line n) = (o'.push (.mapping ⟨column, [], .none⟩)).step (r.line n) := by
  subst hcolumn
  have hline : isItem (r.line n).text = false := hitem
  exact (h n r rfl).trans (Outline.step_push_firstEntry hline).symm

theorem Opens.item (h : Opens column o o') {r : Row} (hcolumn : r.column = column)
    (hitem : isItem r.text = true) (n : Nat) :
    o.step (r.line n) = (o'.push (.sequence ⟨column, [], false⟩)).step (r.line n) := by
  subst hcolumn
  have hline : isItem (r.line n).text = true := hitem
  exact (h n r rfl).trans (Outline.step_push_firstItem hline).symm

/-- Rows that fill a block which their first one opens, and which is left behind the last one, are
read as the value of the block. -/
theorem Leads.block {P : Row → Prop} {b b' : OpenBlock} {rows : List Row}
    (h : Leads P (o'.push b) rows (o'.push b')) (hP : ∀ r, Left column r → P r)
    (hleave : ∀ line : Line, line.column < column → b'.place line = .leave) (hne : rows ≠ [])
    (hfirst : ∀ r ∈ rows.head?, ∀ n, o.step (r.line n) = (o'.push b).step (r.line n)) :
    Leads (Left column) o rows (o'.give b'.close) := by
  have hleft : Same (Left column) (o'.push b') (o'.give b'.close) :=
    ⟨fun n r hr => Outline.step_push_leave (hleave (r.line n) hr), Outline.close_push⟩
  obtain ⟨r, rows, rfl⟩ := List.exists_cons_of_ne_nil hne
  exact ((h.mono hP).trans_same hleft).start (hfirst r rfl)

/-- **What stands inside a tree is read as the tree**, by induction on the tree. -/
theorem Layable.readInside (hk : 0 < k) (h : Layable v) : ReadInside k v := by
  induction h with
  | scalar h =>
    intro column o o' hne _
    exact absurd (insideRows_scalar h) hne
  | @seq items _ full layable ih =>
    intro column o o' hne hopens
    have hreads : Leads (ItemOrLeft column) (o'.push (.sequence ⟨column, [], false⟩))
        (itemRows k column items) (o'.push (.sequence ⟨column, items, false⟩)) :=
      leads_items hk full layable ih
    refine hreads.block (fun r hr => .inl hr) (fun line hline => ?_) hne fun r hr => ?_
    · exact OpenSequence.place_left (s := ⟨column, items, false⟩) hline
    · obtain ⟨hcolumn, hitem⟩ := head_itemRows r hr
      exact hopens.item hcolumn hitem
  | @map entries distinct quotable layable ih =>
    intro column o o' hne hopens
    have hreads : Leads (EntryOrLeft column) (o'.push (.mapping ⟨column, [], .none⟩))
        (entryRows k column entries) (o'.push (.mapping ⟨column, entries, .none⟩)) :=
      leads_entries hk (.inside o') distinct quotable layable ih
    refine hreads.block (fun r hr => .inl hr) (fun line hline => ?_) hne fun r hr => ?_
    · exact OpenMapping.place_left (m := ⟨column, entries, .none⟩) hline
    · obtain ⟨hcolumn, hitem⟩ := head_entryRows r hr
      exact hopens.entry hcolumn hitem

/-- **A document is read back.** For every mapping with a layout, and every number of columns
between two levels, the document of the mapping is read as the mapping. -/
theorem parse_document {m : YamlMap} (hk : 0 < k) (h : Layable (.map m)) :
    parse (document k m) = .ok m := by
  rw [parse_eq, linesOf_document h]
  cases h with
  | scalar h => cases h
  | map distinct quotable layable =>
    have hreads : Leads (EntryOrLeft 0) (Seat.top.put ⟨0, [], .none⟩) (entryRows k 0 m)
        (Seat.top.put ⟨0, m, .none⟩) :=
      leads_entries hk .top distinct quotable layable fun e he => (layable e he).readInside hk
    obtain ⟨o, ho, hsame⟩ := hreads 1
    have houtline : outlineOf (numbered 1 (entryRows k 0 m)) = .ok o := by
      cases hrows : entryRows k 0 m with
      | nil =>
        rw [hrows] at ho
        exact ho
      | cons r rows =>
        obtain ⟨hcolumn, hitem⟩ := head_entryRows r (by rw [hrows]; rfl)
        rw [hrows, numbered] at ho
        have hfirst : isItem (r.line 1).text = false := hitem
        rw [numbered, outlineOf, hfirst, if_neg Bool.false_ne_true]
        show (r.line 1 :: numbered (1 + 1) rows).foldlM Outline.step (.start r.column) = .ok o
        rw [hcolumn]
        exact ho
    rw [houtline]
    exact congrArg Except.ok hsame.close

/-- Strings that look like items, entries, comments and markers, and nested collections. -/
def lookalikes : YamlMap := [
  ("- a", .seq [.str "b: c # d", .int (-7), .seq [.null, .str ""], .map [("---", .map [])]]),
  ("it's", .map [("|", .bool false), ("#", .map [])])]

theorem parse_document_lookalikes :
    document 2 lookalikes =
        "\"- a\":\n  - \"b: c # d\"\n  - -7\n  -\n    - null\n    - \"\"\n  -\n" ++
          "    \"---\":\n\"it's\":\n  \"|\": false\n  \"#\":\n" ∧
      parse (document 2 lookalikes) = .ok lookalikes := by
  have hempty : Layable (.map []) := .map (by decide) (by decide) (by simp)
  have hblank : Layable (.str "") := .scalar (.str (by decide))
  have hinner : Layable (.seq [.null, .str ""]) :=
    .seq (by simp) (by simp) (by simp [hblank, Layable.scalar, Scalar.null])
  have hmarker : Layable (.map [("---", .map [])]) :=
    .map (by decide) (by decide) (by simp [hempty])
  have hitems : Layable (.seq [.str "b: c # d", .int (-7), .seq [.null, .str ""],
      .map [("---", .map [])]]) := by
    have hstr : Layable (.str "b: c # d") := .scalar (.str (by decide))
    have hint : Layable (.int (-7)) := .scalar (.int (by decide) (by decide))
    exact .seq (by simp) (by simp) (by simp [hstr, hint, hinner, hmarker])
  have hentries : Layable (.map [("|", .bool false), ("#", .map [])]) :=
    .map (by decide) (by decide) (by simp [hempty, Layable.scalar, Scalar.bool])
  have hlayable : Layable (.map lookalikes) :=
    .map (by decide) (by decide) (by simp [lookalikes, hitems, hentries])
  exact ⟨by decide +kernel, parse_document (by decide) hlayable⟩

end DockerSim.Yaml
