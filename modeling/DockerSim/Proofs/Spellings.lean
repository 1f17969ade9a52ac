import Mathlib.Data.List.Basic
import Mathlib.Data.List.TakeWhile
import DockerSim.Compose.Check
import DockerSim.Port
import DockerSim.Proofs.Blanks

/-!
# Spellings of ports and mounts

How a port mapping and a mount are written (`PortMapping.Spells`, `MountSpec.Spells`), said without
the readers of these texts. An entry that passes the check of a stack file is read as a mapping if
and only if it spells the mapping (`ofText?_eq_some_iff`). The check lets other entries pass: ranges
of ports, numbers above the range of ports, other protocols, and bind addresses with colons.
-/

namespace DockerSim

/-! ## Pieces of a text -/

namespace Chars

variable {sep : Char} {cs before after : List Char}

theorem split_eq_splitOn (sep : Char) (cs : List Char) : split sep cs = cs.splitOn sep :=
  splitBy_eq_splitOnP _ cs

theorem not_mem_of_mem_split : ∀ {cs piece : List Char}, piece ∈ split sep cs → sep ∉ piece
  | [], piece, h => by
    rw [List.mem_singleton.1 h]
    exact List.not_mem_nil
  | c :: cs, piece, h => by
    unfold split splitBy at h
    cases hs : splitBy (· == sep) cs with
    | nil => exact absurd hs (splitBy_ne_nil _ cs)
    | cons first pieces =>
      have hrest : ∀ q ∈ first :: pieces, sep ∉ q := by
        intro q hq
        have hq' : q ∈ split sep cs := by
          rw [split, hs]
          exact hq
        exact not_mem_of_mem_split hq'
      simp only [hs] at h
      split at h
      · rcases List.mem_cons.1 h with rfl | h
        · exact List.not_mem_nil
        · exact hrest piece h
      · next hc =>
        rcases List.mem_cons.1 h with rfl | h
        · have hfirst := hrest first List.mem_cons_self
          rw [List.mem_cons, not_or]
          exact ⟨fun he => hc (by simp [he]), hfirst⟩
        · exact hrest piece (List.mem_cons_of_mem _ h)

/-- **The pieces of a text** are free of the separator, and the text is made of them. -/
theorem split_eq_iff {pieces : List (List Char)} (hne : pieces ≠ []) :
    split sep cs = pieces ↔ (∀ piece ∈ pieces, sep ∉ piece) ∧ [sep].intercalate pieces = cs := by
  constructor
  · rintro rfl
    exact ⟨fun _ => not_mem_of_mem_split, by rw [split_eq_splitOn, List.intercalate_splitOn]⟩
  · rintro ⟨hfree, rfl⟩
    rw [split_eq_splitOn, List.splitOn_intercalate sep hfree hne]

theorem cutLast_eq_none_iff : cutLast sep cs = none ↔ sep ∉ cs := by
  refine ⟨cutLast_eq_some.cutLast_none_not_mem, fun h => ?_⟩
  cases hc : cutLast sep cs with
  | none => rfl
  | some parts =>
    obtain ⟨before, after⟩ := parts
    obtain ⟨-, rfl⟩ := cutLast_eq_some hc
    exact absurd (List.mem_append_right _ List.mem_cons_self) h

theorem cutLast_eq_some_iff :
    cutLast sep cs = some (before, after) ↔ sep ∉ after ∧ cs = before ++ sep :: after := by
  refine ⟨cutLast_eq_some, ?_⟩
  rintro ⟨hfree, rfl⟩
  induction before with
  | nil =>
    rw [List.nil_append, cutLast, cutLast_eq_none_iff.2 hfree]
    exact if_pos rfl
  | cons c before ih => rw [List.cons_append, cutLast, ih]

theorem cut_eq_some_iff :
    cut sep cs = some (before, after) ↔ sep ∉ before ∧ cs = before ++ sep :: after := by
  constructor
  · intro h
    obtain ⟨c, hc, hfree, rfl⟩ := cutWhere_eq_some h
    refine ⟨fun hmem => ?_, by rw [beq_iff_eq.1 hc]⟩
    simpa using hfree sep hmem
  · rintro ⟨hfree, rfl⟩
    induction before with
    | nil => simp [cut, cutWhere]
    | cons c before ih =>
      rw [List.mem_cons, not_or] at hfree
      have hne : (c == sep) = false := by simpa using Ne.symm hfree.1
      have hrest : cutWhere (· == sep) (before ++ sep :: after) = some (before, after) :=
        ih hfree.2
      simp [cut, cutWhere, hne, hrest]

theorem cut_eq_none_iff : cut sep cs = none ↔ sep ∉ cs := by
  rw [Option.eq_none_iff_forall_ne_some]
  constructor
  · intro h hmem
    obtain ⟨before, after, hcs, hfree⟩ := List.eq_append_cons_of_mem hmem
    exact h (before, after) (cut_eq_some_iff.2 ⟨hfree, hcs⟩)
  · rintro h ⟨before, after⟩ hcut
    rw [(cut_eq_some_iff.1 hcut).2] at h
    exact h (List.mem_append_right _ List.mem_cons_self)

/-! ## Numerals -/

theorem natural?_eq_some {n : Nat} (h : natural? cs = some n) :
    cs ≠ [] ∧ ∀ c ∈ cs, isDigit c = true := by
  unfold natural? at h
  split at h
  · next hdigits => simpa using hdigits
  · cases h

/-- A numeral without a sign is a row of digits. -/
theorem unsigned?_eq_some_iff {bound n : Nat} (hsign : cs.head? ≠ some '+') :
    unsigned? bound cs = some n ↔ natural? cs = some n ∧ n < bound := by
  have hdigits : unsigned? bound cs = (natural? cs).filter (· < bound) := by
    unfold unsigned?
    split
    · exact absurd rfl hsign
    · rfl
  rw [hdigits, Option.filter_eq_some_iff, decide_eq_true_iff]

/-- A numeral is digits, behind a plus sign if there is one. -/
theorem mem_of_unsigned? {bound n : Nat} (h : unsigned? bound cs = some n) :
    cs ≠ [] ∧ ∀ c ∈ cs, isDigit c = true ∨ c = '+' := by
  by_cases hsign : cs.head? = some '+'
  · obtain ⟨rest, rfl⟩ := List.head?_eq_some_iff.1 hsign
    obtain ⟨hdigits, -⟩ := Option.filter_eq_some_iff.1 h
    have hall := (natural?_eq_some hdigits).2
    exact ⟨List.cons_ne_nil _ _, fun c hc => (List.mem_cons.1 hc).symm.imp (hall c) id⟩
  · obtain ⟨hdigits, -⟩ := (unsigned?_eq_some_iff hsign).1 h
    obtain ⟨hne, hall⟩ := natural?_eq_some hdigits
    exact ⟨hne, fun c hc => .inl (hall c hc)⟩

theorem colon_not_mem_of_unsigned? {bound n : Nat} (h : unsigned? bound cs = some n) :
    ':' ∉ cs := fun hmem => absurd ((mem_of_unsigned? h).2 _ hmem) (by decide)

theorem head?_ne_of_natural? {n : Nat} (h : natural? cs = some n) : cs.head? ≠ some '+' :=
  fun hsign => absurd ((natural?_eq_some h).2 _ (List.mem_of_head? hsign)) (by decide)

end Chars

/-! ## Port mappings -/

open Chars

/-- The protocol is named behind the ports, or it is TCP and is left out. -/
def Protocol.Follows (protocol : Protocol) (ports spec : List Char) : Prop :=
  spec = ports ++ '/' :: protocol.name.toList ∨ protocol = .tcp ∧ '/' ∉ ports ∧ spec = ports

/-- No colon stands behind the ports. -/
theorem Protocol.Follows.append {protocol : Protocol} {ports spec : List Char}
    (h : protocol.Follows ports spec) : ∃ back, ':' ∉ back ∧ spec = ports ++ back := by
  rcases h with rfl | ⟨-, -, rfl⟩
  · exact ⟨'/' :: protocol.name.toList, by cases protocol <;> decide, rfl⟩
  · exact ⟨[], List.not_mem_nil, (List.append_nil _).symm⟩

namespace PortMapping

/-- The two ports are written with a colon in between, behind a bind address if there is one. -/
def Pairs (host container ports : List Char) : Prop :=
  ports = host ++ ':' :: container ∨
    ∃ address, ':' ∉ address ∧ ports = address ++ ':' :: (host ++ ':' :: container)

/-- The text spells the mapping: its two numbers are written in digits and are ports. -/
structure Spells (m : PortMapping) (spec : String) : Prop where
  inRange : m.host < portBound ∧ m.container < portBound
  written : ∃ ports host container, m.protocol.Follows ports spec.toList ∧
    Pairs host container ports ∧ natural? host = some m.host ∧
    natural? container = some m.container

variable {spec : String} {m : PortMapping} {host container ports : List Char}

theorem Pairs.append (h : Pairs host container ports) (back : List Char) :
    Pairs host (container ++ back) (ports ++ back) := by
  rcases h with rfl | ⟨address, ha, rfl⟩
  · exact .inl (by simp)
  · exact .inr ⟨address, ha, by simp⟩

/-- No protocol has a slash in its name. -/
theorem slash_not_mem_name (protocol : Protocol) : '/' ∉ protocol.name.toList := by
  cases protocol <;> decide

theorem splitProtocol_eq_some_iff {ports : String} {protocol : Protocol} :
    splitProtocol spec = some (ports, protocol) ↔
      protocol.Follows ports.toList spec.toList := by
  unfold splitProtocol Protocol.Follows Text.cutLast
  cases hc : cutLast '/' spec.toList with
  | none =>
    have hfree := cutLast_eq_none_iff.1 hc
    simp only [Option.map_none, Option.some.injEq, Prod.mk.injEq]
    constructor
    · rintro ⟨rfl, rfl⟩
      exact .inr ⟨rfl, hfree, rfl⟩
    · rintro (hnamed | ⟨rfl, -, he⟩)
      · rw [hnamed] at hfree
        exact absurd (List.mem_append_right _ List.mem_cons_self) hfree
      · exact ⟨String.toList_inj.1 he, rfl⟩
  | some parts =>
    obtain ⟨before, after⟩ := parts
    obtain ⟨-, hspec⟩ := cutLast_eq_some_iff.1 hc
    -- what is named is what follows the last slash
    have hnamed : (spec.toList = ports.toList ++ '/' :: protocol.name.toList ∨
        protocol = .tcp ∧ '/' ∉ ports.toList ∧ spec.toList = ports.toList) ↔
        before = ports.toList ∧ after = protocol.name.toList := by
      constructor
      · rintro (hspec' | ⟨-, hfree, he⟩)
        · have hc' := cutLast_eq_some_iff.2 ⟨slash_not_mem_name protocol, hspec'⟩
          rw [hc, Option.some.injEq, Prod.mk.injEq] at hc'
          exact hc'
        · rw [← he, hspec] at hfree
          exact absurd (List.mem_append_right _ List.mem_cons_self) hfree
      · rintro ⟨rfl, rfl⟩
        exact .inl hspec
    have hbefore : before = ports.toList ↔ String.ofList before = ports := by
      rw [← String.toList_inj, String.toList_ofList]
    have hafter : after = protocol.name.toList ↔ String.ofList after = protocol.name := by
      rw [← String.toList_inj, String.toList_ofList]
    rw [hnamed, hbefore, hafter]
    simp only [Option.map_some]
    generalize String.ofList before = front, String.ofList after = name
    split
    · next h => cases h
    · next h =>
      cases h
      cases protocol <;> simp [Protocol.name]
    · next h =>
      cases h
      cases protocol <;> simp [Protocol.name]
    · next other htcp hudp h =>
      refine ⟨fun hnone => (nomatch hnone), ?_⟩
      rintro ⟨-, rfl⟩
      cases protocol with
      | tcp => exact (htcp front (Option.some.inj h).symm).elim
      | udp => exact (hudp front (Option.some.inj h).symm).elim

theorem split_eq_iff_pairs :
    (split ':' ports = [host, container] ∨
      ∃ address, split ':' ports = [address, host, container]) ↔
      Pairs host container ports ∧ ':' ∉ host ∧ ':' ∉ container := by
  unfold Pairs
  simp only [split_eq_iff (List.cons_ne_nil _ _)]
  have hpair : [':'].intercalate [host, container] = host ++ ':' :: container := by
    simp [List.intercalate]
  have htriple : ∀ address, [':'].intercalate [address, host, container] =
      address ++ ':' :: (host ++ ':' :: container) := by
    simp [List.intercalate]
  simp only [hpair, htriple, List.forall_mem_cons]
  constructor
  · rintro (⟨⟨hh, hc, -⟩, rfl⟩ | ⟨address, ⟨ha, hh, hc, -⟩, rfl⟩)
    · exact ⟨.inl rfl, hh, hc⟩
    · exact ⟨.inr ⟨address, ha, rfl⟩, hh, hc⟩
  · rintro ⟨rfl | ⟨address, ha, rfl⟩, hh, hc⟩
    · exact .inl ⟨⟨hh, hc, fun _ hmem => nomatch hmem⟩, rfl⟩
    · exact .inr ⟨address, ⟨ha, hh, hc, fun _ hmem => nomatch hmem⟩, rfl⟩

/-- A mapping is read off the last two of two or three pieces. -/
theorem ofText?_eq_some_iff_pieces : ofText? spec = some m ↔
    ∃ ports host container, splitProtocol spec = some (ports, m.protocol) ∧
      (Text.split ':' ports = [host, container] ∨
        ∃ address, Text.split ':' ports = [address, host, container]) ∧
      Text.unsigned? portBound host = some m.host ∧
      Text.unsigned? portBound container = some m.container := by
  constructor
  · intro h
    obtain ⟨⟨ports, protocol⟩, hprotocol, h⟩ := Option.bind_eq_some_iff.1 h
    have hread : ∀ {host container : String}, (do
        let host ← Text.unsigned? portBound host
        let container ← Text.unsigned? portBound container
        some { host, container, protocol }) = some m →
        m.protocol = protocol ∧ Text.unsigned? portBound host = some m.host ∧
          Text.unsigned? portBound container = some m.container := by
      intro host container h
      simp only [Option.bind_eq_bind, Option.bind_eq_some_iff, Option.some.injEq] at h
      obtain ⟨_, hhost, _, hcontainer, rfl⟩ := h
      exact ⟨rfl, hhost, hcontainer⟩
    dsimp only at h
    split at h
    · next host container hpieces =>
      obtain ⟨rfl, hnumbers⟩ := hread h
      exact ⟨ports, host, container, hprotocol, .inl hpieces, hnumbers⟩
    · next address host container hpieces =>
      obtain ⟨rfl, hnumbers⟩ := hread h
      exact ⟨ports, host, container, hprotocol, .inr ⟨address, hpieces⟩, hnumbers⟩
    · cases h
  · rintro ⟨ports, host, container, hprotocol, hpieces | ⟨address, hpieces⟩, hhost, hcontainer⟩
    · simp [ofText?, hprotocol, hpieces, hhost, hcontainer]
    · simp [ofText?, hprotocol, hpieces, hhost, hcontainer]

theorem split_text_eq_iff {text : String} {pieces : List String} :
    Text.split ':' text = pieces ↔ split ':' text.toList = pieces.map String.toList := by
  unfold Text.split
  constructor
  · rintro rfl
    simp [Function.comp_def]
  · intro h
    simp [h, Function.comp_def]

/-- **What is read as a mapping**: its spellings, and those with a plus sign before a number. -/
theorem ofText?_eq_some_iff_reads : ofText? spec = some m ↔
    ∃ ports host container, m.protocol.Follows ports spec.toList ∧
      Pairs host container ports ∧ unsigned? portBound host = some m.host ∧
      unsigned? portBound container = some m.container := by
  rw [ofText?_eq_some_iff_pieces]
  simp only [splitProtocol_eq_some_iff, split_text_eq_iff, List.map_cons, List.map_nil]
  constructor
  · rintro ⟨ports, host, container, hfollows, hpieces, hnumbers⟩
    have hpieces' : split ':' ports.toList = [host.toList, container.toList] ∨
        ∃ address, split ':' ports.toList = [address, host.toList, container.toList] :=
      hpieces.imp_right fun ⟨address, h⟩ => ⟨address.toList, h⟩
    exact ⟨_, _, _, hfollows, (split_eq_iff_pairs.1 hpieces').1, hnumbers⟩
  · rintro ⟨ports, host, container, hfollows, hpairs, hhost, hcontainer⟩
    have hpieces := split_eq_iff_pairs.2
      ⟨hpairs, colon_not_mem_of_unsigned? hhost, colon_not_mem_of_unsigned? hcontainer⟩
    refine ⟨.ofList ports, .ofList host, .ofList container, ?_, ?_, ?_, ?_⟩
    · rwa [String.toList_ofList]
    · simp only [String.toList_ofList]
      exact hpieces.imp_right fun ⟨address, h⟩ =>
        ⟨.ofList address, by rwa [String.toList_ofList]⟩
    · rwa [Text.unsigned?, String.toList_ofList]
    · rwa [Text.unsigned?, String.toList_ofList]

/-- A spelling is read as the mapping it spells. -/
theorem Spells.ofText?_eq (h : m.Spells spec) : ofText? spec = some m := by
  obtain ⟨⟨hhost, hcontainer⟩, ports, host, container, hfollows, hpairs, hh, hc⟩ := h
  refine ofText?_eq_some_iff_reads.2 ⟨ports, host, container, hfollows, hpairs, ?_, ?_⟩
  · exact (unsigned?_eq_some_iff (head?_ne_of_natural? hh)).2 ⟨hh, hhost⟩
  · exact (unsigned?_eq_some_iff (head?_ne_of_natural? hc)).2 ⟨hc, hcontainer⟩

end PortMapping

/-! ## Entries that are checked -/

namespace Compose

/-- No port number starts with a sign. -/
theorem head?_ne_of_isPortNumber {part : List Char} (h : isPortNumber (.ofList part) = true) :
    part.head? ≠ some '+' := by
  intro hsign
  obtain ⟨rest, rfl⟩ := List.head?_eq_some_iff.1 hsign
  have hbefore : ('+' :: rest).takeWhile (· ≠ '/') = '+' :: rest.takeWhile (· ≠ '/') :=
    List.takeWhile_cons_of_pos (by decide)
  obtain ⟨piece, pieces, hrest⟩ :=
    List.exists_cons_of_ne_nil (splitBy_ne_nil (· == '-') (rest.takeWhile (· ≠ '/')))
  have hpieces : split '-' ('+' :: rest.takeWhile (· ≠ '/')) = ('+' :: piece) :: pieces := by
    unfold split splitBy
    rw [hrest]
    rfl
  unfold isPortNumber Text.before Text.split at h
  simp only [String.toList_ofList, hbefore, hpieces, List.map_cons, List.all_cons,
    Bool.and_eq_true] at h
  obtain ⟨-, ⟨-, hsigned, -⟩, -⟩ := h
  cases hsigned

/-- The check looks at the last two of the pieces between the colons. -/
theorem isPortNumber_of_checkPort {name spec : String} {entry : Yaml} {host container : List Char}
    {rest : List (List Char)} (ht : entry.text? = some spec) (hc : checkPort name entry = [])
    (hpieces : (split ':' spec.toList).reverse = container :: host :: rest) :
    isPortNumber (.ofList host) = true ∧ isPortNumber (.ofList container) = true := by
  unfold checkPort at hc
  simp only [ht, Text.split, ← List.map_reverse, hpieces, List.map_cons] at hc
  split at hc
  · next h => simpa using h
  · cases hc

end Compose

namespace PortMapping

variable {spec : String} {m : PortMapping} {host container ports : List Char}

/-- **An entry that passes the check is read as a mapping if and only if it spells it.** -/
theorem ofText?_eq_some_iff {name : String} {entry : Yaml} (ht : entry.text? = some spec)
    (hc : Compose.checkPort name entry = []) : ofText? spec = some m ↔ m.Spells spec := by
  refine ⟨fun h => ?_, Spells.ofText?_eq⟩
  obtain ⟨ports, host, container, hfollows, hpairs, hhost, hcontainer⟩ :=
    ofText?_eq_some_iff_reads.1 h
  obtain ⟨back, hback, hspec⟩ := hfollows.append
  have hpairs' : Pairs host (container ++ back) spec.toList := hspec ▸ hpairs.append back
  have hfree : ':' ∉ container ++ back :=
    List.not_mem_append (colon_not_mem_of_unsigned? hcontainer) hback
  -- the check looks at the same pieces, but for the protocol, which it leaves on the last one
  obtain ⟨rest, hpieces⟩ : ∃ rest,
      (split ':' spec.toList).reverse = (container ++ back) :: host :: rest := by
    rcases split_eq_iff_pairs.2 ⟨hpairs', colon_not_mem_of_unsigned? hhost, hfree⟩ with
      hpieces | ⟨address, hpieces⟩
    · exact ⟨[], by rw [hpieces]; rfl⟩
    · exact ⟨[address], by rw [hpieces]; rfl⟩
  obtain ⟨hhost', hcontainer'⟩ := Compose.isPortNumber_of_checkPort ht hc hpieces
  have hsign : container.head? ≠ some '+' := by
    have hhead : (container ++ back).head? = container.head? :=
      List.head?_append_of_ne_nil container (mem_of_unsigned? hcontainer).1
    exact hhead ▸ Compose.head?_ne_of_isPortNumber hcontainer'
  obtain ⟨hh, hhostRange⟩ :=
    (unsigned?_eq_some_iff (Compose.head?_ne_of_isPortNumber hhost')).1 hhost
  obtain ⟨hc, hcontainerRange⟩ := (unsigned?_eq_some_iff hsign).1 hcontainer
  exact ⟨⟨hhostRange, hcontainerRange⟩, ports, host, container, hfollows, hpairs, hh, hc⟩

end PortMapping

/-! ## Mounts -/

namespace MountSpec

/-- The text spells a mount: the source and the target with a colon in between, with options behind
a second colon if there are any. -/
def Spells (source target spec : String) : Prop :=
  ':' ∉ source.toList ∧ ':' ∉ target.toList ∧ ∃ options, (options = [] ∨ options.head? = some ':') ∧
    spec.toList = source.toList ++ ':' :: (target.toList ++ options)

theorem split_eq_some_iff {source target spec : String} :
    split spec = some (source, target) ↔ Spells source target spec := by
  unfold split Spells Text.cut Text.before
  simp only [Option.map_map, Option.map_eq_some_iff, Prod.exists, cut_eq_some_iff,
    Function.comp_apply, Prod.mk.injEq, String.toList_ofList]
  constructor
  · rintro ⟨before, rest, ⟨hfree, hspec⟩, rfl, rfl⟩
    refine ⟨by rwa [String.toList_ofList], ?_, rest.dropWhile (· ≠ ':'), ?_, ?_⟩
    · rw [String.toList_ofList]
      intro hmem
      simpa using List.mem_takeWhile_imp hmem
    · have hstart := List.head?_dropWhile_not (· ≠ ':') rest
      cases hrest : rest.dropWhile (· ≠ ':') with
      | nil => exact .inl rfl
      | cons c options =>
        rw [hrest] at hstart
        exact .inr (by simpa using hstart)
    · rw [String.toList_ofList, String.toList_ofList, List.takeWhile_append_dropWhile, hspec]
  · rintro ⟨hsource, htarget, options, hoptions, hspec⟩
    refine ⟨source.toList, target.toList ++ options, ⟨hsource, hspec⟩, String.ofList_toList, ?_⟩
    have hnone : options.takeWhile (· ≠ ':') = [] := by
      rcases hoptions with rfl | hstart
      · rfl
      · obtain ⟨more, rfl⟩ := List.head?_eq_some_iff.1 hstart
        rfl
    rw [List.takeWhile_append_of_pos (fun c hc => ?_), hnone, List.append_nil,
      String.ofList_toList]
    exact decide_eq_true fun he => htarget (he ▸ hc)

/-- Every text with a colon spells a mount. -/
theorem exists_spells {spec : String} (h : ':' ∈ spec.toList) :
    ∃ source target, Spells source target spec := by
  obtain ⟨source, rest, hspec, hfree⟩ := List.eq_append_cons_of_mem h
  have hcut : cut ':' spec.toList = some (source, rest) := cut_eq_some_iff.2 ⟨hfree, hspec⟩
  refine ⟨.ofList source, Text.before ':' (.ofList rest), split_eq_some_iff.1 ?_⟩
  simp [split, Text.cut, hcut]

end MountSpec

end DockerSim
