import Mathlib
import TestSelection.Proofs.CandidateTexts
import TestSelection.Proofs.EncodedTexts
import TestSelection.Proofs.ExitCodes
import TestSelection.Proofs.StatedTexts

/-!
The candidates that a command names. Every argument names one, except that the first dash stands for
what the lines of the input name and the later ones stand for nothing. A line names what is left of
it without the blank characters around it, unless nothing is left or it is a comment; no line that
is a test identity is passed over. The candidates are those of the texts named, one for each and in
their order, and the report of a selection lists these texts again.
-/

namespace TestSelection

namespace CommandLine

/-- A line of which nothing is left, or a comment. -/
def PassedOver (text : String) : Prop := text = "" ∨ text.startsWith "#" = true

instance (text : String) : Decidable (PassedOver text) :=
  inferInstanceAs (Decidable (text = "" ∨ text.startsWith "#" = true))

/-- The texts that the lines of the input name. -/
def linesNamed (input : String) : List String :=
  ((Text.lines input.toList).map fun line => Text.trim (String.ofList line)).filter
    fun text => ¬ PassedOver text

/-- The texts that the arguments of a command name, with its input. -/
def textsNamed (input : String) (arguments : List String) : List String :=
  let before := arguments.takeWhile (· ≠ dash)
  match arguments.dropWhile (· ≠ dash) with
  | [] => before
  | _ :: after => before ++ linesNamed input ++ after.filter (· ≠ dash)

section Lines

variable {line : List Char} {text input : String} {arguments : List String}

theorem identityIn_eq (text : String) :
    identityIn text = if PassedOver (Text.trim text) then none else some (Text.trim text) := by
  simp [identityIn, PassedOver]

theorem lineText_encoded (line : List Char) :
    lineText (line.flatMap String.utf8EncodeChar) = .ok (String.ofList line) := by
  have hbytes : line.flatMap String.utf8EncodeChar = Text.bytes (String.ofList line) := by
    rw [Text.bytes_eq, String.toList_ofList]
  rw [lineText, hbytes, Text.ofUtf8?_bytes]
  rfl

/-- A text is read line by line, without the line feeds. -/
theorem inputLines_bytes {closed : List (List Char)} {last : List Char}
    (h : input.toList.splitOn '\n' = closed ++ [last]) :
    inputLines (Text.bytes input) none =
      (if last = [] then closed else closed ++ [last]).map fun line =>
        .ok (String.ofList line) := by
  have hsplit : (Text.bytes input).splitOn 0x0a =
      (closed ++ [last]).map fun line => line.flatMap String.utf8EncodeChar := by
    rw [← h, Text.bytes_eq]
    have hmark : '\n'.toNat < 0x80 := by decide
    exact Text.splitOn_encoded hmark input.toList
  have hempty : last.flatMap String.utf8EncodeChar = [] ↔ last = [] := by
    cases last with
    | nil => simp
    | cons c rest =>
      obtain ⟨first, more, hencoded, _⟩ := Text.shown_encoded c []
      simp [hencoded]
  simp only [inputLines, hsplit, List.map_append, List.map_cons, List.map_nil,
    List.getLast?_concat, Option.some.injEq, hempty, List.dropLast_concat]
  split
  · simp [Function.comp_def, lineText_encoded]
  · simp [Function.comp_def, lineText_encoded]

theorem trimChars_concat {c : Char} (hc : Text.isBlank c) (line : List Char) :
    Text.trimChars (line ++ [c]) = Text.trimChars line := by
  obtain ⟨blanks, hsplit, hblanks, hhead⟩ := Text.exists_trimStart line
  have hstart : Text.trimChars line = Text.trimEnd (Text.trimStart line) := rfl
  by_cases hnone : Text.trimStart line = []
  · have hall : Text.trimStart (line ++ [c]) = [] := by
      have hblank := List.dropWhile_eq_nil_iff.mp hnone
      apply List.dropWhile_eq_nil_iff.mpr
      intro d hd
      rcases List.mem_append.mp hd with hd | hd
      · exact hblank d hd
      · rw [List.mem_singleton.mp hd]
        exact hc
    rw [hstart, Text.trimChars, hall, hnone]
  · have hkept : Text.trimStart (line ++ [c]) = Text.trimStart line ++ [c] := by
      conv_lhs => rw [hsplit, List.append_assoc]
      apply Text.trimStart_of_head hblanks
      intro d hd
      rw [List.head?_append_of_ne_nil _ hnone] at hd
      exact hhead d hd
    rw [hstart, Text.trimChars, hkept]
    simp [Text.trimEnd, hc]

/-- A carriage return before the line feed is taken for a blank character. -/
theorem trimChars_dropReturn (line : List Char) :
    Text.trimChars (Text.dropReturn line) = Text.trimChars line := by
  unfold Text.dropReturn
  split
  · next hreturn =>
    have hline := List.dropLast_append_getLast? _ hreturn
    have hblank : Text.isBlank '\r' = true := by decide
    conv_rhs => rw [← hline]
    exact (trimChars_concat hblank _).symm
  · rfl

theorem map_trim_lines {closed : List (List Char)} {last : List Char}
    (h : input.toList.splitOn '\n' = closed ++ [last]) :
    (Text.lines input.toList).map (fun line => Text.trim (String.ofList line)) =
      (if last = [] then closed else closed ++ [last]).map fun line =>
        Text.trim (String.ofList line) := by
  have htrim (line : List Char) : Text.trim (String.ofList (Text.dropReturn line)) =
      Text.trim (String.ofList line) := by
    simp only [Text.trim, String.toList_ofList, trimChars_dropReturn]
  simp only [Text.lines, h, List.getLast?_concat, List.dropLast_concat]
  cases last with
  | nil => simp [Function.comp_def, htrim]
  | cons c rest => simp [Function.comp_def, htrim]

theorem listed_ok (lines : List (List Char)) :
    listed (lines.map fun line => .ok (String.ofList line)) =
      ((lines.map fun line => Text.trim (String.ofList line)).filter
        fun text => ¬ PassedOver text).map .ok := by
  induction lines with
  | nil => rfl
  | cons line rest ih =>
    by_cases hpassed : PassedOver (Text.trim (String.ofList line))
    · have hnone : identityIn (String.ofList line) = none := by
        rw [identityIn_eq, if_pos hpassed]
      simp [listed_passedOver hnone, ih, hpassed]
    · have hsome : identityIn (String.ofList line) = some (Text.trim (String.ofList line)) := by
        rw [identityIn_eq, if_neg hpassed]
      simp [listed_of_identityIn hsome, ih, hpassed]

theorem listed_inputLines (input : String) :
    listed (inputLines (Text.bytes input) none) = (linesNamed input).map .ok := by
  obtain ⟨closed, last, hsplit⟩ : ∃ closed last, input.toList.splitOn '\n' = closed ++ [last] :=
    ⟨_, _, (List.dropLast_concat_getLast (List.splitOn_ne_nil '\n' input.toList)).symm⟩
  rw [inputLines_bytes hsplit, listed_ok, linesNamed, map_trim_lines hsplit]

end Lines

section Tokens

variable {input identity : String} {arguments : List String} {refusal : Refusal}
  {candidates : List TestCandidate}

/-- Once the input has been read, a dash stands for nothing. -/
theorem tokens_nil (arguments : List String) :
    tokens [] arguments = (arguments.filter (· ≠ dash)).map .ok := by
  induction arguments with
  | nil => rfl
  | cons argument rest ih =>
    by_cases hdash : argument = dash
    · simp [tokens, hdash, ih, listed]
    · simp [tokens, hdash, ih]

theorem tokens_inputLines (input : String) (arguments : List String) :
    tokens (inputLines (Text.bytes input) none) arguments =
      (textsNamed input arguments).map .ok := by
  induction arguments with
  | nil => rfl
  | cons argument rest ih =>
    by_cases hdash : argument = dash
    · have htexts : textsNamed input (argument :: rest) =
          linesNamed input ++ rest.filter (· ≠ dash) := by
        simp [textsNamed, hdash]
      rw [htexts, tokens, if_pos hdash, listed_inputLines, tokens_nil, List.map_append]
    · have htexts : textsNamed input (argument :: rest) = argument :: textsNamed input rest := by
        have hkept : decide (argument ≠ dash) = true := by simpa using hdash
        simp only [textsNamed, List.takeWhile_cons, List.dropWhile_cons, hkept, if_true]
        cases rest.dropWhile (· ≠ dash) <;> rfl
      rw [htexts, tokens, if_neg hdash, ih]
      rfl

theorem readCandidates_inputLines (input : String) (arguments : List String) :
    readCandidates (inputLines (Text.bytes input) none) arguments =
      (textsNamed input arguments).mapM candidate := by
  rw [readCandidates_eq, tokens_inputLines, List.mapM_map]
  rfl

theorem candidate_eq_ok_iff {candidate : TestCandidate} :
    CommandLine.candidate identity = .ok candidate ↔ TestCandidate.Writes identity candidate := by
  rw [← TestCandidate.parse?_eq_some_iff, CommandLine.candidate]
  cases TestCandidate.parse? identity <;> simp

theorem candidate_eq_error_iff :
    CommandLine.candidate identity = .error refusal ↔
      (∀ candidate, ¬ TestCandidate.Writes identity candidate) ∧
        refusal = .failure (.argument (.invalidIdentity identity)) := by
  simp only [← TestCandidate.parse?_eq_some_iff]
  rw [CommandLine.candidate]
  cases TestCandidate.parse? identity <;> simp [eq_comm]

end Tokens

section Identities

variable {text line : String} {candidate : TestCandidate}

/-- A test identity begins with a character of the class, which is neither blank nor a `#`. -/
theorem exists_head?_of_writes (h : TestCandidate.Writes text candidate) :
    ∃ c, text.toList.head? = some c ∧ ¬ Text.isBlank c ∧ c ≠ '#' := by
  have hclass : TestCandidate.IsClass candidate.className := h.isClass
  have hsegments := Text.joined_segments candidate.className
  obtain ⟨first, rest, hcut⟩ := List.exists_cons_of_ne_nil
    (Text.segments_ne_nil candidate.className)
  obtain ⟨hfirst, hblank⟩ := hclass.segments first (hcut ▸ List.mem_cons_self)
  obtain ⟨c, more, rfl⟩ := List.exists_cons_of_ne_nil hfirst
  have hhead : candidate.className.toList.head? = some c := by
    rw [← hsegments, hcut]
    cases rest <;> simp [List.intercalate_cons_of_ne_nil]
  have hmem : c ∈ candidate.className.toList := List.mem_of_head? hhead
  refine ⟨c, ?_, hblank c List.mem_cons_self, fun hmark => hclass.unmarked (hmark ▸ hmem)⟩
  rw [← h.text_eq, TestCandidate.text]
  split
  · exact hhead
  · rw [String.toList_append, String.toList_append, List.append_assoc, List.head?_append, hhead]
    rfl

theorem head?_trim {c : Char} (h : text.toList.head? = some c) (hc : ¬ Text.isBlank c) :
    (Text.trim text).toList.head? = some c := by
  have hleft : Text.trim text ≠ "" := by
    intro hnone
    exact hc (Text.trim_eq_empty_iff.mp hnone c (List.mem_of_head? h))
  have hstates := Text.states_trim hleft
  obtain ⟨before, after, hsplit, hbefore, _⟩ := hstates.exists_split
  have hcore : (Text.trim text).toList ≠ [] := fun hnil =>
    hleft (String.toList_eq_nil_iff.mp hnil)
  cases before with
  | nil =>
    rw [hsplit, List.nil_append, List.head?_append_of_ne_nil _ hcore] at h
    exact h
  | cons blank before =>
    rw [hsplit] at h
    cases h
    exact absurd (hbefore c List.mem_cons_self) hc

theorem not_passedOver_of_head? {c : Char} (h : text.toList.head? = some c) (hc : c ≠ '#') :
    ¬ PassedOver text := by
  intro hpassed
  rcases hpassed with rfl | hmark
  · cases h
  · rw [String.startsWith_string_iff] at hmark
    obtain ⟨rest, hrest⟩ := hmark
    rw [← hrest] at h
    cases h
    exact hc rfl

/-- No line that is a test identity, as it stands or trimmed, is passed over. -/
theorem not_passedOver_of_writes (h : TestCandidate.Writes line candidate ∨
    TestCandidate.Writes (Text.trim line) candidate) : ¬ PassedOver (Text.trim line) := by
  rcases h with h | h
  · obtain ⟨c, hhead, hblank, hmark⟩ := exists_head?_of_writes h
    exact not_passedOver_of_head? (head?_trim hhead hblank) hmark
  · obtain ⟨c, hhead, _, hmark⟩ := exists_head?_of_writes h
    exact not_passedOver_of_head? hhead hmark

theorem map_text_of_writes {texts : List String} {candidates : List TestCandidate}
    (h : List.Forall₂ TestCandidate.Writes texts candidates) :
    candidates.map (·.text) = texts := by
  induction h with
  | nil => rfl
  | cons hfirst _ ih => rw [List.map_cons, ih, hfirst.text_eq]

end Identities

/-- The candidates of a command are those of the texts that its arguments and its input name, one
for each text and in their order. If some of them is no test identity, the first of these is what
the command is refused for. No line that is a test identity is passed over, and the report of a
selection lists exactly these texts. -/
theorem candidates_as_named (input : String) (arguments : List String) :
    let named := textsNamed input arguments
    let read := readCandidates (inputLines (Text.bytes input) none) arguments
    (∀ candidates, read = .ok candidates ↔
      List.Forall₂ TestCandidate.Writes named candidates) ∧
    (∀ refusal, read = .error refusal ↔
      ∃ before identity after, named = before ++ identity :: after ∧
        (∀ earlier ∈ before, ∃ candidate, TestCandidate.Writes earlier candidate) ∧
        (∀ candidate, ¬ TestCandidate.Writes identity candidate) ∧
        refusal = .failure (.argument (.invalidIdentity identity))) ∧
    (∀ line ∈ (Text.lines input.toList).map String.ofList, ∀ candidate,
      TestCandidate.Writes line candidate ∨ TestCandidate.Writes (Text.trim line) candidate →
        Text.trim line ∈ linesNamed input) ∧
    ∀ around session graph given output noColor candidates,
      around.input = Text.bytes input → around.inputFault = none →
      (readGraph around session given).2 = .ok graph → read = .ok candidates →
        ∃ report : SelectReport,
          (runSelect around session arguments given output noColor).output =
            rendered around output noColor report.toJson report.spans ∧
          report.tests.map (·.test) = named := by
  intro named read
  have hread : read = named.mapM candidate := readCandidates_inputLines input arguments
  have hok (candidates : List TestCandidate) : read = .ok candidates ↔
      List.Forall₂ TestCandidate.Writes named candidates := by
    rw [hread, mapM_eq_ok_iff]
    simp only [candidate_eq_ok_iff]
  refine ⟨hok, ?_, ?_, ?_⟩
  · intro refusal
    rw [hread, mapM_eq_error_iff]
    simp only [candidate_eq_ok_iff, candidate_eq_error_iff]
  · intro line hline candidate hwrites
    obtain ⟨chars, hchars, rfl⟩ := List.mem_map.mp hline
    apply List.mem_filter.mpr
    refine ⟨List.mem_map_of_mem hchars, ?_⟩
    simpa using not_passedOver_of_writes hwrites
  · intro around session graph given output noColor candidates hinput hfault hgraph hcandidates
    have hlines : readCandidates (inputLines around.input around.inputFault) arguments =
        .ok candidates := by
      rw [hinput, hfault]
      exact hcandidates
    rw [runSelect_of_candidates hgraph hlines]
    refine ⟨selectReport around session graph candidates, rfl, ?_⟩
    have htexts : (selectReport around session graph candidates).tests.map (·.test) =
        candidates.map (·.text) := by
      simp [selectReport_tests, TestReport.of]
    rw [htexts]
    exact map_text_of_writes ((hok candidates).mp hcandidates)

/-- Two dashes, and lines with blanks, a comment and nothing. -/
theorem candidates_as_named_in_stray_shop :
    let input := " shop.CartTest \r\n# later\n\nshop.CartTest#adds twice\n"
    let arguments := ["shop.TillTest", "-", "-", "shop.OrderTest#adds"]
    let around : Surroundings := { StrayShop.surroundings with input := Text.bytes input }
    ∃ report : SelectReport,
      (runSelect around StrayShop.session arguments (some "graph.toml") .json true).output =
        report.toJson.document ∧
      report.tests.map (·.test) = ["shop.TillTest", "shop.CartTest", "shop.CartTest#adds twice",
        "shop.OrderTest#adds"] := by
  intro input arguments around
  have hnamed : textsNamed input arguments = ["shop.TillTest", "shop.CartTest",
      "shop.CartTest#adds twice", "shop.OrderTest#adds"] := by
    cbv
  have hwrites : List.Forall₂ TestCandidate.Writes (textsNamed input arguments)
      [⟨"shop.TillTest", none⟩, ⟨"shop.CartTest", none⟩, ⟨"shop.CartTest", some "adds twice"⟩,
        ⟨"shop.OrderTest", some "adds"⟩] := by
    rw [hnamed]
    simp only [List.forall₂_cons, List.forall₂_nil_left_iff, ← TestCandidate.parse?_eq_some_iff]
    decide
  obtain ⟨hok, _, _, hreport⟩ := candidates_as_named input arguments
  obtain ⟨report, houtput, htexts⟩ := hreport around StrayShop.session StrayShop.graph
    (some "graph.toml") .json true _ rfl rfl StrayShop.readGraph_declarations
    ((hok _).mpr hwrites)
  rw [hnamed] at htexts
  exact ⟨report, houtput, htexts⟩

end CommandLine

end TestSelection
