import DockerSim.CommandLine.Parse

/-!
# Splitting a line gives back the words it was made of

Splitting is described by what it does to the front of a line: a word without blanks that does not
start with a quote is read up to the blank behind it, and a word in quotes up to the quote that
closes it, whatever stands inside. Neither looks at what comes after, so one word of a line made by
`join` cannot swallow a part of the next, and the words come back one by one.
-/

namespace DockerSim.Words

/-- A word that `quote` can write: if it must be quoted, one of the two quotes does not occur in
it. -/
def Quotable (w : String) : Prop :=
  needsQuotes w.toList = true → ¬('"' ∈ w.toList ∧ '\'' ∈ w.toList)

instance (w : String) : Decidable (Quotable w) := by unfold Quotable; infer_instance

/-- What can stand behind a word of a line: nothing, or a blank and the rest. -/
def Ends (rest : List Char) : Prop := ∀ c ∈ rest.head?, Chars.isBlank c = true

theorem splitFrom_blank {c : Char} (h : Chars.isBlank c = true) (rest : List Char) :
    splitFrom .between (c :: rest) = splitFrom .between rest := by simp [splitFrom, h]

section Spans

variable {w rest : List Char}

/-- Characters that are not blank belong to the word that is being read. -/
theorem splitFrom_word (hw : ∀ c ∈ w, Chars.isBlank c = false) (hrest : Ends rest)
    (done : List Char) : splitFrom (.word done) (w ++ rest) =
      (done.reverse ++ w) :: splitFrom .between rest := by
  induction w generalizing done with
  | nil =>
    cases rest with
    | nil => simp [splitFrom]
    | cons c rest =>
      have hc : Chars.isBlank c = true := hrest c rfl
      simp [splitFrom, hc]
  | cons c w ih =>
    have hc : Chars.isBlank c = false := hw c (by simp)
    have := ih (fun d hd => hw d (by simp [hd])) (c :: done)
    simpa [splitFrom, hc] using this

/-- A quoted span reaches to the next quote of its kind, over blanks and other quotes. -/
theorem splitFrom_quoted {q : Char} (hw : q ∉ w) (done rest : List Char) :
    splitFrom (.quoted q done) (w ++ q :: rest) =
      (done.reverse ++ w) :: splitFrom .between rest := by
  induction w generalizing done with
  | nil => simp [splitFrom]
  | cons c w ih =>
    have hc : c ≠ q := fun h => hw (by simp [h])
    have := ih (fun h => hw (by simp [h])) (c :: done)
    simpa [splitFrom, hc] using this

/-- A span in quotes is a word, whatever stands behind it. -/
theorem splitFrom_between_quoted {q : Char} (hq : isQuote q = true) (hw : q ∉ w)
    (rest : List Char) :
    splitFrom .between (q :: w ++ q :: rest) = w :: splitFrom .between rest := by
  have hblank : Chars.isBlank q = false := by
    rcases (by simpa [isQuote] using hq : q = '"' ∨ q = '\'') with rfl | rfl <;> decide
  have := splitFrom_quoted hw [] rest
  simpa [splitFrom, hblank, hq] using this

/-- A word that needs no quotes is read as it stands, quotes inside it included. -/
theorem splitFrom_between_plain (hw : needsQuotes w = false) (hrest : Ends rest) :
    splitFrom .between (w ++ rest) = w :: splitFrom .between rest := by
  cases w with
  | nil => simp [needsQuotes] at hw
  | cons c w =>
    obtain ⟨hblank, hquote⟩ : (∀ d ∈ c :: w, Chars.isBlank d = false) ∧ isQuote c = false := by
      simpa [needsQuotes, and_assoc] using hw
    have hc : Chars.isBlank c = false := hblank c (by simp)
    have hrun : ∀ d ∈ w, Chars.isBlank d = false := fun d hd => hblank d (by simp [hd])
    simpa [splitFrom, hc, hquote] using splitFrom_word hrun hrest [c]

end Spans

/-- One word of a line made by `join` is read back, and reading goes on behind it. -/
theorem splitFrom_quote {w : String} (hw : Quotable w) {rest : List Char} (hrest : Ends rest) :
    splitFrom .between (quote w.toList ++ rest) = w.toList :: splitFrom .between rest := by
  by_cases plain : needsQuotes w.toList = false
  · simpa [quote, plain] using splitFrom_between_plain plain hrest
  have must : needsQuotes w.toList = true := by simpa using plain
  by_cases double : '"' ∈ w.toList
  · have single : '\'' ∉ w.toList := fun h => hw must ⟨double, h⟩
    simpa [quote, must, double, single] using
      splitFrom_between_quoted rfl single rest
  · simpa [quote, must, double] using
      splitFrom_between_quoted rfl double rest

/-- The first word, the blank behind it, and the line made of the others. -/
theorem join_cons_cons (w v : String) (words : List String) :
    (join (w :: v :: words)).toList = quote w.toList ++ ' ' :: (join (v :: words)).toList := by
  simp [join, Text.join, String.intercalate_cons_cons]

/-- Splitting undoes `join`, on characters: by induction on the words, each followed by the blank
that `join` puts between two of them. -/
theorem splitFrom_join {words : List String} (h : ∀ w ∈ words, Quotable w) :
    splitFrom .between (join words).toList = words.map String.toList := by
  induction words with
  | nil => rfl
  | cons w words ih =>
    have hw : Quotable w := h w (by simp)
    have hwords := ih fun v hv => h v (by simp [hv])
    cases words with
    | nil =>
      have hends : Ends [] := fun c hc => nomatch hc
      simpa [join, Text.join, splitFrom] using splitFrom_quote hw hends
    | cons v words =>
      have blank : Chars.isBlank ' ' = true := by decide
      rw [join_cons_cons, splitFrom_quote hw (by simp [Ends, blank]), splitFrom_blank blank,
        hwords]
      rfl

/-- **Splitting undoes `join`.** A line made of quotable words is split into exactly these words, so
that the command line it stands for has the first of them as its command and, unless that is
`docker`, the others as its arguments. -/
theorem ofLine_join {words : List String} (h : ∀ w ∈ words, Quotable w) :
    ofLine (join words) = words ∧
      ∀ command args, words = command :: args →
        (CommandLine.parse (join words)).command = command ∧
        (command ≠ CommandLine.docker → (CommandLine.parse (join words)).args = args) := by
  have split : ofLine (join words) = words := by
    simp [ofLine, splitFrom_join h, Function.comp_def]
  refine ⟨split, fun command args hwords => ?_⟩
  rw [CommandLine.parse, split, hwords]
  by_cases isDocker : command = CommandLine.docker
  · simp [CommandLine.ofWords, isDocker]
  · simp [CommandLine.ofWords, isDocker]

theorem ofLine_join_mixed :
    let words := ["echo", "", "two words", "\"lead", "it's", "a\"b'c", "P=C:\\x", "#tag",
      "say \"hi\" now"]
    (∀ w ∈ words, Quotable w) ∧ ofLine (join words) = words ∧
      (CommandLine.parse (join words)).command = "echo" ∧
      (CommandLine.parse (join words)).args = words.tail := by
  intro words
  have quotable : ∀ w ∈ words, Quotable w := by decide +kernel
  obtain ⟨split, parsed⟩ := ofLine_join quotable
  obtain ⟨command, args⟩ := parsed "echo" words.tail rfl
  exact ⟨quotable, split, command, args (by decide)⟩

end DockerSim.Words
