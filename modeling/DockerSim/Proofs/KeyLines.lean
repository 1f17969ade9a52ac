import DockerSim.Proofs.Blanks
import DockerSim.Proofs.ServiceFindings
import DockerSim.Proofs.Yaml.Places
import Mathlib.Data.List.DropRight

/-!
# The lines of keyed findings

A finding that is about a key of a service is reported at the line that a scan of the text comes to,
which knows nothing of what was read. The scan goes from a line to the block below it by columns,
but what it takes for a key is any line that begins like it; inside the block of a service it does
not look at columns either. So the line is one on which the key is written if and only if the first
line that passes for each key on the way is an entry under that key (`keyed_findings_placed_iff`).
-/

namespace DockerSim

open Chars

namespace Chars

variable {p : Char → Bool} {c : Char}

/-- Only what is behind a character that stays is dropped. -/
theorem dropEndWhile_append_cons (hc : p c = false) (a rest : List Char) :
    dropEndWhile p (a ++ c :: rest) = a ++ c :: dropEndWhile p rest := by
  have h : ((c :: rest).reverse).dropWhile p = rest.reverse.dropWhile p ++ [c] := by
    rw [List.reverse_cons, List.dropWhile_append]
    split
    · next hempty => simp [List.isEmpty_iff.1 hempty, hc]
    · rfl
  unfold dropEndWhile
  rw [List.reverse_append, List.dropWhile_append, h, if_neg (by simp)]
  simp

theorem exists_dropEndWhile_append (p : Char → Bool) (cs : List Char) :
    ∃ rest, cs = dropEndWhile p cs ++ rest := by
  obtain ⟨rest, h⟩ := List.rdropWhile_prefix p cs
  exact ⟨rest, h.symm⟩

end Chars

namespace Compose

/-! ## What passes for a key -/

/-- The text begins with the key and its colon. Quotes may stand around the key, in any number. -/
def BeginsLike (key : String) (text : List Char) : Prop :=
  (∀ c ∈ key.toList.head?, Yaml.isQuoteMark c = false) ∧
    ∃ front back rest, (∀ c ∈ front, Yaml.isQuoteMark c = true) ∧
      (∀ c ∈ back, Yaml.isQuoteMark c = true) ∧
      text = front ++ (key.toList ++ (back ++ ':' :: rest))

theorem dropWhile_marks {marks rest : List Char} (h : ∀ c ∈ marks, Yaml.isQuoteMark c = true)
    (hrest : ∀ c ∈ rest.head?, Yaml.isQuoteMark c = false) :
    (marks ++ rest).dropWhile Yaml.isQuoteMark = rest := by
  rw [List.dropWhile_append_of_pos h]
  cases rest with
  | nil => rfl
  | cons c rest => rw [List.dropWhile_cons, hrest c rfl, if_neg Bool.false_ne_true]

/-- **A line passes for a key** when it begins like one. -/
theorem hasKey_iff {key : String} {l : ScanLine} : l.hasKey key = true ↔ BeginsLike key l.text := by
  unfold ScanLine.hasKey
  dsimp only
  constructor
  · intro h
    obtain ⟨last, hlast⟩ := exists_dropEndWhile_append Yaml.isQuoteMark
      (l.text.dropWhile Yaml.isQuoteMark)
    have hhead := List.head?_dropWhile_not Yaml.isQuoteMark l.text
    have htext := List.takeWhile_append_dropWhile (p := Yaml.isQuoteMark) (l := l.text)
    split at h
    · next after hafter =>
      rw [after?_eq_some_iff] at hafter
      rw [hafter] at hlast
      rw [hlast] at hhead htext
      obtain ⟨rest, hrest⟩ := List.head?_eq_some_iff.1 (of_decide_eq_true h)
      have hback := List.takeWhile_append_dropWhile (p := Yaml.isQuoteMark) (l := after)
      rw [hrest] at hback
      refine ⟨fun c hc => ?_, l.text.takeWhile Yaml.isQuoteMark,
        after.takeWhile Yaml.isQuoteMark, rest ++ last, fun c hc => List.mem_takeWhile_imp hc,
        fun c hc => List.mem_takeWhile_imp hc, ?_⟩
      swap
      · rw [← hback] at htext
        simpa using htext.symm
      obtain ⟨cs, hkey⟩ := List.head?_eq_some_iff.1 hc
      rw [hkey] at hhead
      simpa using hhead
    · cases h
  · rintro ⟨hkey, front, back, rest, hfront, hback, htext⟩
    have hcolon : Yaml.isQuoteMark ':' = false := by decide
    have hafter : (l.text.dropWhile Yaml.isQuoteMark) = key.toList ++ (back ++ ':' :: rest) ∨
        key.toList = [] ∧ l.text.dropWhile Yaml.isQuoteMark = ':' :: rest := by
      rw [htext]
      cases hk : key.toList with
      | nil =>
        refine .inr ⟨rfl, ?_⟩
        rw [List.nil_append, ← List.append_assoc]
        refine dropWhile_marks (List.forall_mem_append.2 ⟨hfront, hback⟩) ?_
        rintro _ ⟨⟩
        exact hcolon
      | cons c cs =>
        refine .inl (dropWhile_marks hfront ?_)
        rw [hk] at hkey
        exact hkey
    rcases hafter with hdrop | ⟨hk, hdrop⟩
    · have hlast : dropEndWhile Yaml.isQuoteMark (key.toList ++ (back ++ ':' :: rest)) =
          key.toList ++ (back ++ ':' :: dropEndWhile Yaml.isQuoteMark rest) := by
        rw [← List.append_assoc, dropEndWhile_append_cons hcolon, List.append_assoc]
      rw [hdrop, hlast, after?_eq_some_iff.2 rfl]
      dsimp only
      rw [dropWhile_marks hback (by rintro _ ⟨⟩; exact hcolon)]
      rfl
    · have hlast : dropEndWhile Yaml.isQuoteMark (':' :: rest) =
          ':' :: dropEndWhile Yaml.isQuoteMark rest := dropEndWhile_append_cons hcolon [] rest
      rw [hdrop, hlast, hk, after?_eq_some_iff.2 (List.nil_append _).symm]
      dsimp only
      rw [List.dropWhile_cons, hcolon, if_neg Bool.false_ne_true]
      rfl

/-- Blanks at the end do not matter. -/
theorem beginsLike_trimEnd_iff {key : String} {text : List Char} :
    BeginsLike key (trimEnd text) ↔ BeginsLike key text := by
  constructor
  · rintro ⟨hkey, front, back, rest, hfront, hback, htext⟩
    obtain ⟨blank, htrim, -⟩ := exists_trimEnd_append text
    exact ⟨hkey, front, back, rest ++ blank, hfront, hback, by rw [htrim, htext]; simp⟩
  · rintro ⟨hkey, front, back, rest, hfront, hback, rfl⟩
    refine ⟨hkey, front, back, trimEnd rest, hfront, hback, ?_⟩
    have h := dropEndWhile_append_cons (p := isBlank) (c := ':') (by decide)
      (front ++ (key.toList ++ back)) rest
    simpa [trimEnd, dropEndWhile] using h

/-! ## The lines of the scan -/

/-- The line as the reader has it. -/
def ScanLine.line (l : ScanLine) : Yaml.Line :=
  { number := l.number, column := l.column, text := trimEnd l.text }

end Compose

/-- The line begins like an entry under the key, so that the scan takes it for one. -/
def Yaml.Line.passesFor (key : String) (l : Yaml.Line) : Bool :=
  Compose.ScanLine.hasKey key { number := l.number, column := l.column, text := l.text }

namespace Compose

open Yaml ComposeProblem

variable {key name service : String}

theorem passesFor_line (l : ScanLine) : l.line.passesFor key = l.hasKey key := by
  rw [Bool.eq_iff_iff, Line.passesFor, hasKey_iff, hasKey_iff]
  exact beginsLike_trimEnd_iff

/-- **The scan sees the lines of the reader**, and in front of them the markers that the reader
passes over. -/
theorem exists_scanFrom : ∀ (raws : List (List Char)) (n : Nat) (started : Bool),
    ∃ marks tail, scanFrom n raws = marks ++ tail ∧ (started = true → marks = []) ∧
      (∀ l ∈ marks, l.text = ['-', '-', '-']) ∧
        linesFrom n started raws = tail.map ScanLine.line
  | [], _, _ => ⟨[], [], rfl, fun _ => rfl, List.forall_mem_nil _, rfl⟩
  | raw :: raws, n, started => by
    rw [scanFrom, linesFrom]
    by_cases hsilent : (trimStart raw).isEmpty || (trimStart raw).head? = some '#'
    · have hnone : Line.ofChars? n raw = none := by
        unfold Line.ofChars?
        exact if_pos hsilent
      rw [if_pos hsilent, hnone]
      exact exists_scanFrom raws (n + 1) started
    · have hline : Line.ofChars? n raw = some (ScanLine.line
          ⟨n, byteSize (raw.takeWhile isBlank), trimStart raw⟩) := by
        unfold Line.ofChars?
        exact if_neg hsilent
      rw [if_neg hsilent, hline]
      dsimp only
      split
      · next hmark =>
        rw [Bool.and_eq_true, decide_eq_true_iff, Bool.not_eq_true'] at hmark
        obtain ⟨marks, tail, hscan, -, hmarks, hlines⟩ := exists_scanFrom raws (n + 1) false
        refine ⟨_ :: marks, tail, by rw [hscan]; rfl, fun hs => ?_,
          List.forall_mem_cons.2 ⟨hmark.2, hmarks⟩, hlines⟩
        rw [hs] at hmark
        cases hmark.1
      · obtain ⟨marks, tail, hscan, hnone, -, hlines⟩ := exists_scanFrom raws (n + 1) true
        rw [hnone rfl, List.nil_append] at hscan
        exact ⟨[], _ :: tail, by rw [hscan]; rfl, fun _ => rfl, List.forall_mem_nil _,
          by rw [hlines]; rfl⟩

/-- A block that is even holds the same lines, whether they are deeper than what is above it or not
to the left of its first line. -/
theorem takeWhile_even {α : Type} {column : α → Nat} {c d : Nat} {xs : List α} (hcd : c < d)
    (heven : ∀ x ∈ xs.takeWhile (c < column ·), d ≤ column x) :
    xs.takeWhile (d ≤ column ·) = xs.takeWhile (c < column ·) := by
  induction xs with
  | nil => rfl
  | cons x xs ih =>
    by_cases hx : c < column x
    · rw [List.takeWhile_cons_of_pos (by simpa using hx)] at heven
      obtain ⟨hd, hxs⟩ := List.forall_mem_cons.1 heven
      rw [List.takeWhile_cons_of_pos (by simpa using hd),
        List.takeWhile_cons_of_pos (by simpa using hx), ih hxs]
    · have hd : ¬d ≤ column x := by omega
      rw [List.takeWhile_cons_of_neg (by simpa using hd),
        List.takeWhile_cons_of_neg (by simpa using hx)]

theorem of_dropWhile_eq_cons {α : Type} {p : α → Bool} {x : α} {xs rest : List α}
    (h : xs.dropWhile p = x :: rest) : p x = false := by
  have hhead := List.head?_dropWhile_not p xs
  rw [h] at hhead
  simpa using hhead

/-- The first line of the scan that satisfies a test, with its block. -/
def firstBlock (test : ScanLine → Bool) (lines : List ScanLine) :
    Option (ScanLine × List ScanLine) :=
  match lines.dropWhile (!test ·) with
  | [] => none
  | header :: rest => some (header, rest.takeWhile (header.column < ·.column))

/-- The lines of the scan have the blocks that the lines of the reader have. -/
theorem map_firstBlock (p : Line → Bool) (lines : List ScanLine) :
    (firstBlock (p ·.line) lines).map (fun e => (e.1.line, e.2.map ScanLine.line)) =
      (blocks p (lines.map ScanLine.line)).head? := by
  induction lines with
  | nil => rfl
  | cons l lines ih =>
    rw [List.map_cons, blocks]
    cases hp : p l.line with
    | true =>
      rw [firstBlock, List.dropWhile_cons_of_neg (by simp [hp]), if_pos rfl, List.takeWhile_map]
      rfl
    | false =>
      rw [firstBlock, List.dropWhile_cons_of_pos (by simp [hp]), ← firstBlock, ih,
        if_neg Bool.false_ne_true]

/-- A search of lines in a column that is known to end in front of a line that is not deeper, is a
search of the lines in front of it. -/
theorem search_eq_firstBlock {test : ScanLine → Bool} {c : Nat} {outside : List ScanLine}
    (htest : ∀ l, test l = true → l.column = c) (hstops : outside.takeWhile (c < ·.column) = [])
    (inside : List ScanLine) :
    (if !inside.any test then none
      else match (inside ++ outside).dropWhile (!test ·) with
        | header :: rest => some (header, rest.takeWhile (c < ·.column))
        | [] => none) = firstBlock test inside := by
  unfold firstBlock
  cases hfound : inside.dropWhile (!test ·) with
  | nil =>
    have hnone : inside.any test = false := by
      simpa using List.dropWhile_eq_nil_iff.1 hfound
    rw [hnone]
    rfl
  | cons header rest =>
    have hheader : test header = true := by simpa using of_dropWhile_eq_cons hfound
    have hmem : header ∈ inside := (List.dropWhile_sublist _).mem (hfound ▸ List.mem_cons_self)
    rw [List.any_eq_true.2 ⟨header, hmem, hheader⟩, List.dropWhile_append, hfound]
    simp only [Bool.not_true, Bool.false_eq_true, if_false, List.isEmpty_cons, List.cons_append]
    rw [takeWhile_append_of_stops hstops, htest header hheader]

/-- The scan looks for a service in the lines below that of the services, as far as they are deeper
than it, when these are even. -/
theorem serviceBlock_eq_firstBlock {before more : List ScanLine} {l first : ScanLine}
    (hbefore : ∀ b ∈ before, (b.column = 0 && b.hasKey "services") = false)
    (hl : (l.column = 0 && l.hasKey "services") = true) (hfirst : 0 < first.column)
    (heven : ∀ b ∈ (first :: more).takeWhile (0 < ·.column), first.column ≤ b.column) :
    serviceBlock (before ++ l :: first :: more) service =
      firstBlock (fun l => l.column = first.column && l.hasKey service)
        ((first :: more).takeWhile (0 < ·.column)) := by
  have hbelow : (before ++ l :: first :: more).dropWhile
      (fun l => !(l.column = 0 && l.hasKey "services")) = l :: first :: more := by
    rw [List.dropWhile_append_of_pos fun b hb => by rw [hbefore b hb]; rfl,
      List.dropWhile_cons_of_neg (by simpa using hl)]
  have hstops : ((first :: more).dropWhile (0 < ·.column)).takeWhile (first.column < ·.column) =
      [] := by
    cases hrest : (first :: more).dropWhile (0 < ·.column) with
    | nil => rfl
    | cons x rest =>
      have hx : x.column = 0 := by simpa using of_dropWhile_eq_cons hrest
      exact List.takeWhile_cons_of_neg (by simp [hx])
  have htest : ∀ b : ScanLine, (b.column = first.column && b.hasKey service) = true →
      b.column = first.column := by
    intro b hb
    rw [Bool.and_eq_true, decide_eq_true_iff] at hb
    exact hb.1
  have hsearch := search_eq_firstBlock htest hstops ((first :: more).takeWhile (0 < ·.column))
  rw [List.takeWhile_append_dropWhile] at hsearch
  unfold serviceBlock
  dsimp only
  rw [hbelow, List.drop_succ_cons, List.drop_zero]
  dsimp only
  rw [takeWhile_even hfirst heven]
  exact hsearch

/-- **Where the scan finds a service**: in the block below the line of the services, at the first
line in the column of the entries that passes for the name. -/
theorem serviceBlock_append {before rest : List ScanLine} {l : ScanLine} {block : List Line}
    (hbefore : ∀ b ∈ before, (b.column = 0 && b.hasKey "services") = false)
    (hl : (l.column = 0 && l.hasKey "services") = true)
    (hblock : (rest.map ScanLine.line).takeWhile (0 < ·.column) = block) (hne : block ≠ [])
    (heven : ∀ b ∈ block, firstColumn block ≤ b.column) (service : String) :
    (serviceBlock (before ++ l :: rest) service).map (fun e => (e.1.line, e.2.map ScanLine.line)) =
      (blocks (atEntry block (·.passesFor service)) block).head? := by
  rw [List.takeWhile_map] at hblock
  have hmap : (rest.takeWhile (0 < ·.column)).map ScanLine.line = block := hblock
  cases rest with
  | nil => exact absurd hblock.symm hne
  | cons first more =>
    have hfirst : 0 < first.column := by
      by_contra hzero
      rw [List.takeWhile_cons_of_neg (by simpa using hzero)] at hmap
      exact hne hmap.symm
    have hcolumn : firstColumn block = first.column := by
      rw [← hmap, List.takeWhile_cons_of_pos (by simpa using hfirst)]
      rfl
    rw [serviceBlock_eq_firstBlock hbefore hl hfirst fun b hb => ?_]
    · have htest : (fun l : ScanLine => l.column = first.column && l.hasKey service) =
          fun l : ScanLine => atEntry block (·.passesFor service) l.line := by
        funext l
        rw [atEntry, hcolumn, passesFor_line]
        rfl
      rw [htest, map_firstBlock, hmap]
    · rw [← hcolumn]
      exact heven b.line (hmap ▸ List.mem_map_of_mem hb)

/-! ## Where the scan comes to -/

/-- On the way to a key the scan is not mistaken: the first line in the column of the entries that
passes for a name is an entry that opens it, and the first line that passes for the key is an entry
under the key, in the column of the entries. -/
def Unmistaken : (path : List String) → (key : String) → List Line → Prop
  | [], key, lines =>
    ∃ l, lines.find? (·.passesFor key) = some l ∧ atEntry lines (·.names key) l = true
  | name :: path, key, lines =>
    ∃ l block, (blocks (atEntry lines (·.passesFor name)) lines).head? = some (l, block) ∧
      l.opens name = true ∧ Unmistaken path key block

/-- The number of the line that the scan comes to, among the lines of the services. -/
def scannedLine (service key : String) (services : List Line) : Nat :=
  match (blocks (atEntry services (·.passesFor service)) services).head? with
  | none => 1
  | some (header, block) =>
    match block.find? (·.passesFor key) with
    | some l => l.number
    | none => header.number

/-- **The scan comes to a line that the key is written on** if and only if it is not mistaken. -/
theorem scannedLine_iff {services : List Line}
    (hincreasing : (services.map (·.number)).Pairwise (· < ·))
    (hone : ∀ l ∈ services, 1 < l.number) (service key : String) :
    (∃ l ∈ written [service] key services, scannedLine service key services = l.number) ↔
      Unmistaken [service] key services := by
  have hnumbers : (services.map (·.number)).Nodup := hincreasing.imp Nat.ne_of_lt
  have hsame : ∀ {l l' : Line}, l ∈ services → l' ∈ services → l.number = l'.number → l = l' :=
    fun hl hl' he => List.inj_on_of_nodup_map hnumbers hl hl' he
  have hwritten : ∀ {l}, l ∈ written [service] key services ↔
      ∃ header block, (header, block) ∈ blocks (atEntry services (·.opens service)) services ∧
        l ∈ block ∧ atEntry block (·.names key) l = true := by
    intro l
    simp [written]
  unfold scannedLine Unmistaken
  cases hhead : (blocks (atEntry services (·.passesFor service)) services).head? with
  | none =>
    refine iff_of_false ?_ (by rintro ⟨l, block, h, -⟩; cases h)
    rintro ⟨l, hl, he⟩
    obtain ⟨header, block, hblock, hmem, -⟩ := hwritten.1 hl
    exact absurd he (hone l (mem_of_mem_blocks hblock hmem)).ne
  | some first =>
    obtain ⟨header, block⟩ := first
    have hfirst : (header, block) ∈ blocks (atEntry services (·.passesFor service)) services :=
      List.mem_of_head? hhead
    obtain ⟨front, rest, hservices, hatheader, hrest⟩ := mem_blocks_iff.1 hfirst
    obtain ⟨hcolumn, -⟩ := column_of_atEntry hatheader
    dsimp only
    constructor
    · rintro ⟨l, hl, he⟩
      obtain ⟨header', block', hblock', hmem', hnames⟩ := hwritten.1 hl
      obtain ⟨front', rest', hservices', hatheader', hrest'⟩ := mem_blocks_iff.1 hblock'
      obtain ⟨hcolumn', hopens⟩ := column_of_atEntry hatheader'
      have hl := mem_of_mem_blocks hblock' hmem'
      cases hfind : block.find? (·.passesFor key) with
      | none =>
        -- The line of the service stands to the left of the lines of its block.
        rw [hfind] at he
        have hheader : header ∈ services := by rw [hservices]; simp
        cases hsame hheader hl he
        rw [hrest'] at hmem'
        have hdeeper : header'.column < header.column := by
          simpa using List.mem_takeWhile_imp hmem'
        omega
      | some found =>
        rw [hfind] at he
        have hfound := List.mem_of_find?_eq_some hfind
        cases hsame (mem_of_mem_blocks hfirst hfound) hl he
        obtain ⟨rfl, rfl⟩ := block_unique (fun _ h => (column_of_atEntry h).1)
          (fun _ h => (column_of_atEntry h).1) (List.Nodup.of_map _ hnumbers) hfirst hblock' hfound
          hmem'
        exact ⟨header, block, rfl, hopens, _, hfind, hnames⟩
    · rintro ⟨header', block', he, hopens, hmistaken⟩
      cases he
      obtain ⟨found, hfind, hnames⟩ := hmistaken
      have hblock : (header, block) ∈ blocks (atEntry services (·.opens service)) services :=
        mem_blocks_iff.2 ⟨front, rest, hservices, by simp [atEntry, hcolumn, hopens], hrest⟩
      have hfound := List.mem_of_find?_eq_some hfind
      refine ⟨found, hwritten.2 ⟨header, block, hblock, hfound, hnames⟩, ?_⟩
      rw [hfind]

/-! ## Files with one line for the services -/

/-- The line stands in the first column and is an entry for the services, or passes for one. -/
def startsServices (l : Line) : Bool :=
  l.column = 0 && (l.names "services" || l.passesFor "services")

/-- The file is read, its keys stand in the first column, and it has a single line for its
services. -/
structure SingleServices (content : String) : Prop where
  read : ∃ doc, Yaml.parse content = .ok doc
  column : firstColumn (linesOf content) = 0
  single : ∃ l, (linesOf content).filter startsServices = [l]

variable {content : String} {l : Line} {before rest : List Line}

theorem names_of_opens (h : l.opens key = true) : l.names key = true := by
  simp only [Line.opens, Bool.and_eq_true, decide_eq_true_eq] at h
  simp [Line.names, h.1, h.2]

/-- The line of the services and what is around it. -/
structure ServicesAt (content : String) (before : List Line) (l : Line) (rest : List Line) :
    Prop where
  lines : linesOf content = before ++ l :: rest
  column : l.column = 0
  opens : l.opens "services" = true
  others : ∀ b ∈ before ++ rest, startsServices b = false

/-- The services are read from the block of their line. -/
theorem SingleServices.exists_at (h : SingleServices content) {doc services : YamlMap}
    (hdoc : Yaml.parse content = .ok doc) (hservices : doc.get? "services" = some (.map services))
    (hne : services ≠ []) : ∃ before l rest, ServicesAt content before l rest ∧
      ofLines (rest.takeWhile (0 < ·.column)) = .ok services := by
  obtain ⟨l, block, hblock, hread⟩ :=
    (places_of_ofLines hdoc).maps "services" services hservices hne
  obtain ⟨before, rest, hlines, hat, rfl⟩ := mem_blocks_iff.1 hblock
  obtain ⟨hcolumn, hopens⟩ := column_of_atEntry hat
  rw [h.column] at hcolumn
  obtain ⟨l', hsingle⟩ := h.single
  have hstarts : startsServices l = true := by
    simp [startsServices, hcolumn, names_of_opens hopens]
  rw [hlines, List.filter_append, List.filter_cons_of_pos hstarts] at hsingle
  have hlength := congrArg List.length hsingle
  simp only [List.length_append, List.length_cons, List.length_nil] at hlength
  have hbefore : before.filter startsServices = [] := List.length_eq_zero_iff.1 (by omega)
  have hrest : rest.filter startsServices = [] := List.length_eq_zero_iff.1 (by omega)
  rw [hcolumn] at hread
  refine ⟨before, l, rest, ⟨hlines, hcolumn, hopens, fun b hb => ?_⟩, hread⟩
  rcases List.mem_append.1 hb with hb | hb
  · simpa using List.filter_eq_nil_iff.1 hbefore b hb
  · simpa using List.filter_eq_nil_iff.1 hrest b hb

namespace ServicesAt

/-- No other line is the first to pass for the services, or opens them. -/
theorem blocks_eq (h : ServicesAt content before l rest) (hroot : firstColumn (linesOf content) = 0)
    {p : Line → Bool} (hp : ∀ b, b.column = 0 → p b = true → startsServices b = true) :
    blocks (atEntry (linesOf content) p) (linesOf content) =
      if p l then [(l, rest.takeWhile (0 < ·.column))] else [] := by
  have hskip : ∀ {xs : List Line}, (∀ b ∈ xs, startsServices b = false) → ∀ ys,
      blocks (atEntry (linesOf content) p) (xs ++ ys) =
        blocks (atEntry (linesOf content) p) ys := by
    intro xs hxs ys
    induction xs with
    | nil => rfl
    | cons b xs ih =>
      obtain ⟨hb, hxs⟩ := List.forall_mem_cons.1 hxs
      rw [List.cons_append, blocks, if_neg, ih hxs]
      intro hat
      obtain ⟨hcolumn, hpb⟩ := column_of_atEntry hat
      rw [hp b (hcolumn.trans hroot) hpb] at hb
      cases hb
  have hrest := hskip (fun b hb => h.others b (List.mem_append_right _ hb)) []
  rw [List.append_nil] at hrest
  have hl : atEntry (linesOf content) p l = p l := by simp [atEntry, hroot, h.column]
  have hlines := congrArg (blocks (atEntry (linesOf content) p)) h.lines
  rw [hlines, hskip (fun b hb => h.others b (List.mem_append_left _ hb)), blocks, hl, hrest,
    h.column]
  rfl

theorem written_eq (h : ServicesAt content before l rest)
    (hroot : firstColumn (linesOf content) = 0) (path : List String) :
    written ("services" :: path) key (linesOf content) =
      written path key (rest.takeWhile (0 < ·.column)) := by
  have hopens : ∀ b : Line, b.column = 0 → b.opens "services" = true → startsServices b = true := by
    intro b hb hopens
    simp [startsServices, hb, names_of_opens hopens]
  rw [written, h.blocks_eq hroot hopens, if_pos h.opens, List.flatMap_singleton]

theorem unmistaken_iff (h : ServicesAt content before l rest)
    (hroot : firstColumn (linesOf content) = 0) (path : List String) :
    Unmistaken ("services" :: path) key (linesOf content) ↔
      l.passesFor "services" = true ∧ Unmistaken path key (rest.takeWhile (0 < ·.column)) := by
  have hpasses : ∀ b : Line, b.column = 0 → b.passesFor "services" = true →
      startsServices b = true := by
    intro b hb hpasses
    simp [startsServices, hb, hpasses]
  rw [Unmistaken, h.blocks_eq hroot hpasses]
  split
  · next hl =>
    refine ⟨?_, fun ⟨_, hpath⟩ => ⟨l, _, rfl, h.opens, hpath⟩⟩
    rintro ⟨_, _, he, -, hpath⟩
    cases he
    exact ⟨hl, hpath⟩
  · next hl =>
    refine iff_of_false ?_ fun hall => hl hall.1
    rintro ⟨_, _, he, -⟩
    cases he

/-- The scan sees the line of the services, and no other that passes for it in the first column. -/
theorem exists_scan (h : ServicesAt content before l rest) : ∃ front l' rest',
    scan content = front ++ l' :: rest' ∧ l'.line = l ∧ rest'.map ScanLine.line = rest ∧
      ∀ b ∈ front ++ rest', (b.column = 0 && b.hasKey "services") = false := by
  obtain ⟨marks, tail, hscan, -, hmarks, hlines⟩ :=
    exists_scanFrom (Chars.lines content.toList) 1 false
  rw [← linesOf, h.lines] at hlines
  obtain ⟨before', more, rfl, rfl, hmore⟩ := List.map_eq_append_iff.1 hlines.symm
  obtain ⟨l', rest', rfl, rfl, rfl⟩ := List.map_eq_cons_iff.1 hmore
  have hpasses : ∀ b : ScanLine, startsServices b.line = false →
      (b.column = 0 && b.hasKey "services") = false := by
    intro b hb
    rw [startsServices, passesFor_line, Bool.and_or_distrib_left, Bool.or_eq_false_iff] at hb
    exact hb.2
  refine ⟨marks ++ before', l', rest', by rw [List.append_assoc]; exact hscan, rfl, rfl, ?_⟩
  intro b hb
  rw [List.append_assoc, List.mem_append, List.mem_append] at hb
  rcases hb with hb | hb | hb
  · -- A marker has no colon.
    rw [Bool.and_eq_false_iff]
    refine .inr (Bool.eq_false_iff.2 fun hkey => ?_)
    obtain ⟨-, front, back, behind, -, -, htext⟩ := hasKey_iff.1 hkey
    have hcolon : ':' ∈ b.text := by rw [htext]; simp
    rw [hmarks b hb] at hcolon
    exact absurd hcolon (by decide)
  · exact hpasses b (h.others _ (List.mem_append_left _ (List.mem_map_of_mem hb)))
  · exact hpasses b (h.others _ (List.mem_append_right _ (List.mem_map_of_mem hb)))

/-- The scan goes on from the line of the services when that line passes for it, and gives up
otherwise. -/
theorem fieldLine_eq (h : ServicesAt content before l rest)
    (hne : rest.takeWhile (0 < ·.column) ≠ [])
    (heven : ∀ b ∈ rest.takeWhile (0 < ·.column),
      firstColumn (rest.takeWhile (0 < ·.column)) ≤ b.column) (service key : String) :
    fieldLine (scan content) service key =
      if l.passesFor "services" then scannedLine service key (rest.takeWhile (0 < ·.column))
      else 1 := by
  obtain ⟨front, l', rest', hscan, rfl, rfl, hothers⟩ := h.exists_scan
  obtain ⟨hfront, hrest⟩ := List.forall_mem_append.1 hothers
  rw [hscan, passesFor_line]
  unfold fieldLine
  cases hkey : l'.hasKey "services" with
  | true =>
    have hblock := serviceBlock_append hfront
      (by rw [hkey]; exact (Bool.and_true _).trans (decide_eq_true h.column)) rfl hne heven service
    rw [if_pos rfl]
    unfold scannedLine
    rw [← hblock]
    cases serviceBlock (front ++ l' :: rest') service with
    | none => rfl
    | some found =>
      obtain ⟨header, block⟩ := found
      have hpred : (fun b : Line => b.passesFor key) ∘ ScanLine.line = ScanLine.hasKey key :=
        funext passesFor_line
      rw [Option.map_some]
      dsimp only
      rw [List.find?_map, hpred]
      cases block.find? (ScanLine.hasKey key) <;> rfl
  | false =>
    have hnone : (front ++ l' :: rest').dropWhile
        (fun b => !(b.column = 0 && b.hasKey "services")) = [] := by
      refine List.dropWhile_eq_nil_iff.2 fun b hb => ?_
      rw [Bool.not_eq_true']
      rcases List.mem_append.1 hb with hb | hb
      · exact hfront b hb
      · rcases List.mem_cons.1 hb with rfl | hb
        · rw [hkey, Bool.and_false]
        · exact hrest b hb
    have hblock : serviceBlock (front ++ l' :: rest') service = none := by
      unfold serviceBlock
      rw [hnone]
      rfl
    rw [hblock]
    rfl

/-- The lines below that of the services are numbered on from it. -/
theorem numbers (h : ServicesAt content before l rest) :
    (rest.map (·.number)).Pairwise (· < ·) ∧ ∀ b ∈ rest, 1 < b.number := by
  have hincreasing := increasing_linesFrom (Chars.lines content.toList) 1 false
  rw [← linesOf, h.lines, List.map_append, List.map_cons, List.pairwise_append,
    List.pairwise_cons] at hincreasing
  obtain ⟨-, ⟨hafter, hrest⟩, -⟩ := hincreasing
  have hl : l ∈ linesOf content := by rw [h.lines]; simp
  have hfirst := (number_bounds hl).1
  exact ⟨hrest, fun b hb => hfirst.trans_lt (hafter _ (List.mem_map_of_mem hb))⟩

end ServicesAt

/-! ## Keyed findings -/

/-- **Where a keyed finding is.** In a file with one line for its services, a rule that is about a
key of a service finds it in a service in which that key is written; and the finding carries the
number of a line on which the key is written, as a key of that service, if and only if the scan is
not mistaken on its way there. -/
theorem keyed_findings_placed_iff {content : String} (h : SingleServices content)
    (paths : List String) :
    ∀ f ∈ check content paths, ∀ key, ruleKey? f.rule = some key →
      (∃ service svc, FoundIn content paths service svc f) ∧
      ∀ service svc, FoundIn content paths service svc f →
        written ["services", service] key (linesOf content) ≠ [] ∧
        ((∃ l ∈ written ["services", service] key (linesOf content), f.line = l.number) ↔
          Unmistaken ["services", service] key (linesOf content)) := by
  intro f hf key hkey
  refine ⟨foundIn_of_mem_check hf hkey, ?_⟩
  rintro service svc ⟨doc, services, hdoc, hservices, hmem, hfound⟩
  have hproper := Yaml.parse_proper hdoc
  have hkeys : (YamlMap.keys services).Nodup :=
    hproper.values _ ((YamlMap.get?_eq_some_iff hproper.keys).1 hservices) rfl
  have hsvc := (YamlMap.get?_eq_some_iff hkeys).2 hmem
  have hat : doc.mapAt? ["services", service] = some svc := by
    simp [YamlMap.mapAt?, hservices, hsvc]
  refine ⟨written_ne_nil hdoc hat (contains_of_mem hfound hkey), ?_⟩
  obtain ⟨before, l, rest, hplace, hread⟩ :=
    h.exists_at hdoc hservices (List.ne_nil_of_mem hmem)
  obtain ⟨hincreasing, hone⟩ := hplace.numbers
  have hsub := List.takeWhile_sublist (p := fun b : Line => decide (0 < b.column)) (l := rest)
  have hne : rest.takeWhile (0 < ·.column) ≠ [] := by
    intro hnil
    rw [hnil] at hread
    cases hread
    cases hmem
  have heven : ∀ b ∈ rest.takeWhile (0 < ·.column),
      firstColumn (rest.takeWhile (0 < ·.column)) ≤ b.column := by
    rw [ofLines_eq] at hread
    cases ho : outlineOf (rest.takeWhile (0 < ·.column)) with
    | error e => rw [ho] at hread; cases hread
    | ok o => exact (above_of_outlineOf ho).1
  obtain ⟨ps, p, -, -, rfl⟩ := mem_checkService_of_key hfound hkey
  have hline := hplace.fieldLine_eq hne heven service key
  have hscan := scannedLine_iff (hincreasing.sublist (hsub.map _))
    (fun b hb => hone b (hsub.mem hb)) service key
  rw [hplace.written_eq h.column, hplace.unmistaken_iff h.column, ← hscan]
  dsimp only [ComposeProblem.finding]
  rw [hline]
  split
  · next hpasses => simp [hpasses]
  · next hpasses =>
    refine iff_of_false ?_ fun hall => hpasses hall.1
    rintro ⟨b, hb, he⟩
    exact absurd he (hone b (hsub.mem (mem_of_mem_written hb))).ne

/-- A stack with the key `image` in two services, and deeper in the second one below it. -/
def imageAboveLabels : String :=
  "services:\n  db:\n    image: redis:7\n  web:\n    image: nginx\n    labels:\n      image: x\n"

/-- The key is found in the service it belongs to, and in front of the deeper one. -/
theorem keyed_findings_placed_siblings : SingleServices imageAboveLabels ∧
    (unpinnedImage "web" "nginx").finding 5 ∈ check imageAboveLabels [] ∧
      ∃ l ∈ written ["services", "web"] "image" (linesOf imageAboveLabels), l.number = 5 := by
  have hsingle : SingleServices imageAboveLabels :=
    ⟨⟨_, parse_of_outlineOf (by rfl)⟩, by decide +kernel, ⟨_, by rfl⟩⟩
  have hmem : (unpinnedImage "web" "nginx").finding 5 ∈ check imageAboveLabels [] := by
    decide +kernel
  obtain ⟨-, hplaced⟩ := keyed_findings_placed_iff hsingle [] _ hmem "image" rfl
  obtain ⟨-, hiff⟩ := hplaced "web" _
    ⟨_, _, parse_of_outlineOf (by rfl), by rfl, .tail _ (.head _), by decide +kernel⟩
  obtain ⟨l, hl, hnumber⟩ := hiff.2 ⟨_, _, by rfl, by rfl, _, _, by rfl, by rfl, _, by rfl, by rfl⟩
  exact ⟨hsingle, hmem, l, hl, hnumber.symm⟩

/-- A stack with the key `image` deeper in a service, above the one of the service. -/
def imageBelowLabels : String :=
  "services:\n  web:\n    labels:\n      image: x\n    image: nginx\n"

/-- The scan takes the deeper key for the key of the service. -/
theorem keyed_finding_misplaced : SingleServices imageBelowLabels ∧
    (unpinnedImage "web" "nginx").finding 4 ∈ check imageBelowLabels [] ∧
      (written ["services", "web"] "image" (linesOf imageBelowLabels)).map (·.number) = [5] :=
  ⟨⟨⟨_, parse_of_outlineOf (by rfl)⟩, by decide +kernel, ⟨_, by rfl⟩⟩, by decide +kernel,
    by decide +kernel⟩

end Compose

end DockerSim
