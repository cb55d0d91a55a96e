import TouchedLines.CommandLine.Needs
import TouchedLines.Proofs.ClosingLine
import TouchedLines.Proofs.GivenFormat
import TouchedLines.Proofs.ListedFiles
import TouchedLines.Proofs.Refusal
import TouchedLines.Proofs.ReportDocument

/-! # One check, two formats

The format is chosen after the check is over, so it has no part in what is run or in the exit code.
Both reports are written from the same outcomes: the offenses of the JSON document are the blocks of
the text report, one by one. A file that fails without an offense has an entry but no block; the
text report shows it only by not ending with the closing line.
-/

namespace TouchedLines

open Text Json

/-- The results of one check with a text report and with a JSON report, of which the one consists of
blocks and the other is a document. -/
structure SameCheck (w : World) (text json : RunResult) (document : ReportDocument)
    (blocks : List OffenseBlock) : Prop where
  completed : json.failure = none
  read : ReportDocument.ofText? json.output.toList = some document
  tallies : document.Tallies
  verdict : json.exitCode = if document.failed = 0 then 0 else 1
  written : text.output.toList = (CheckTrace.startLine w).toList ++
    blocks.flatMap OffenseBlock.text ++
    if document.failed = 0 then CheckTrace.allWell.toList else []
  count : document.offenseCount = blocks.length
  offenses : (document.entries.flatMap fun e => e.offenses.map fun v => (e.path, v)) =
    blocks.map fun b => (b.path, b.offense.toJson)

namespace SameCheck

variable {w : World} {text json : RunResult} {document : ReportDocument}
  {blocks : List OffenseBlock}

theorem endsAllWell (h : SameCheck w text json document blocks) (hFailed : document.failed = 0) :
    EndsAllWell text.output := by
  obtain ⟨lines, hLines⟩ := OffenseBlock.exists_lines blocks
  refine ⟨("[START] ".toList ++ w.clock.toList) :: lines, ?_⟩
  rw [h.written, if_pos hFailed, hLines, toList_startLine, terminateLines, terminateLines,
    List.flatMap_cons]

theorem endsAllWell_iff (h : SameCheck w text json document blocks)
    (hClock : '\n' ∉ w.clock.toList) (hBlocks : ∀ b ∈ blocks, b.Unbroken) :
    EndsAllWell text.output ↔ document.failed = 0 := by
  refine ⟨fun hEnds => ?_, h.endsAllWell⟩
  by_contra hFailed
  have hWritten := h.written
  rw [if_neg hFailed, List.append_nil] at hWritten
  rcases List.eq_nil_or_concat blocks with rfl | ⟨others, last, rfl⟩
  · rw [List.flatMap_nil, List.append_nil] at hWritten
    rw [String.toList_inj.mp hWritten] at hEnds
    exact not_endsAllWell_startLine hClock hEnds
  · have hLast : last.Unbroken := hBlocks last (by simp)
    refine last.not_endsAllWell hLast
      ((CheckTrace.startLine w).toList ++ others.flatMap OffenseBlock.text) ?_ hEnds
    rw [hWritten, List.concat_eq_append, List.flatMap_append, List.flatMap_singleton,
      List.append_assoc]

end SameCheck

namespace CheckRequest

theorem run_inFormat {r : CheckRequest} {w : World} {config : Config} {exclusion : Exclusion}
    (hConfig : Config.IsLoaded w.files w.env r.config config)
    (hExclusion : Exclusion.ofGlobs config.exclude = .ok exclusion) (f : ReportFormat) :
    (r.inFormat f).run w =
      { exitCode := (r.perform w config exclusion).summary.exitCode
        output := (r.perform w config exclusion).report w f
        failure := none
        runs := (r.perform w config exclusion).runs w config } := by
  have hInFormat : Config.IsLoaded w.files w.env (r.inFormat f).config config := hConfig
  exact run_of_loaded hInFormat hExclusion

/-- Only what an analyzer has reported can break a line. -/
theorem unbroken_of_mem_blocks {r : CheckRequest} {w : World} {config : Config}
    {exclusion : Exclusion} {b : OffenseBlock}
    (hb : b ∈ (r.perform w config exclusion).summary.blocks)
    (hPath : Category.ofPath? b.path ≠ some .ruby) : b.Unbroken := by
  intro _
  obtain ⟨o, ho, hBlock⟩ := List.mem_flatMap.mp hb
  obtain ⟨offense, hOffense, rfl⟩ := List.mem_map.mp hBlock
  obtain ⟨c, hCategory, hChecks⟩ := exists_checks_of_mem_perform ho
  refine hChecks.oneLine ?_ hOffense
  intro hRuby
  apply hPath
  rw [← hRuby, ← hCategory, hChecks.path]

theorem Refuses.inFormat {r : CheckRequest} {w : World} {failure : Failure}
    (h : r.Refuses w failure) (f : ReportFormat) : (r.inFormat f).Refuses w failure := by
  cases h with
  | config hSource hReads => exact .config hSource hReads
  | exclusion hConfig hGlobs hBefore hGlob => exact .exclusion hConfig hGlobs hBefore hGlob

end CheckRequest

namespace Summary

theorem entries_document_eq_blocks (s : Summary) :
    (s.document.entries.flatMap fun e => e.offenses.map fun v => (e.path, v)) =
      s.blocks.map fun b => (b.path, b.offense.toJson) := by
  simp [document, blocks, Outcome.entry, List.flatMap_map, List.map_flatMap, Function.comp_def]

end Summary

theorem CheckTrace.sameCheck (t : CheckTrace) (w : World) (runs : List Invocation) :
    SameCheck w ⟨t.summary.exitCode, t.report w .text, none, runs⟩
      ⟨t.summary.exitCode, t.report w .json, none, runs⟩ t.summary.document t.summary.blocks where
  completed := rfl
  read := t.summary.ofText?_renderJson
  tallies := t.summary.tallies_document
  verdict := rfl
  written := by
    have hCode : t.summary.exitCode = 0 ↔ t.summary.document.failed = 0 := by
      simp [Summary.exitCode, Summary.document]
    simp only [report, String.toList_append, t.summary.toList_renderText, hCode]
    split <;> rfl
  count := t.summary.length_blocks.symm
  offenses := t.summary.entries_document_eq_blocks

/-- A check in the text format and in the JSON format has the same exit code, starts the same
programs in the same order and fails for the same reason; where help is asked for in place of a
check, both show the same. If the check takes place, the JSON report is a
document whose summary counts its own entries, and each of its offenses is a block of the text
report. The text report ends with the closing line if no file failed, and only then unless an
offense of a Ruby file on a line that the file does not have breaks its line. -/
theorem runArguments_formats (w : World) {before middle : List String} (rest : List String)
    (hBefore : ∀ argument ∈ before, ∀ text, Argument.ofText argument ≠ .plain text)
    (hMiddle : "--" ∉ middle) :
    let text := runArguments w (Command.checkIn .text before middle rest)
    let json := runArguments w (Command.checkIn .json before middle rest)
    text.exitCode = json.exitCode ∧ text.runs = json.runs ∧ text.failure = json.failure ∧
      ((∃ failure, json.failure = some failure ∧ text.output = "" ∧ json.output = "") ∨
        (∃ topic, Command.ofArguments? (Command.checkIn .json before middle rest) =
          some (.help topic) ∧ text = json) ∨
        ∃ document blocks, SameCheck w text json document blocks ∧
          (document.failed = 0 → EndsAllWell text.output) ∧
          ('\n' ∉ w.clock.toList →
            (∀ b ∈ blocks, Category.ofPath? b.path = some .ruby → b.Unbroken) →
            (EndsAllWell text.output ↔ document.failed = 0))) := by
  intro text json
  obtain hNone | ⟨topic, hHelp⟩ | ⟨r, hRequest⟩ :=
    Command.ofArguments?_checkIn rest hBefore hMiddle
  · have hRun : ∀ f, runArguments w (Command.checkIn f before middle rest) = .failed .usage := by
      intro f
      rw [runArguments, hNone]
    simp only [text, json, hRun, true_and]
    exact .inl ⟨.usage, rfl, rfl, rfl⟩
  · have hRun : ∀ f,
        runArguments w (Command.checkIn f before middle rest) = (Command.help topic).run w := by
      intro f
      rw [runArguments, hHelp]
    simp only [text, json, hRun, true_and]
    exact .inr (.inl ⟨topic, hHelp .json, trivial⟩)
  have hRun : ∀ f,
      runArguments w (Command.checkIn f before middle rest) = (r.inFormat f).run w := by
    intro f
    rw [runArguments, hRequest]
    rfl
  obtain ⟨failure, hRefused⟩ | ⟨config, exclusion, hConfig, hExclusion, -⟩ := r.run_cases w
  · have hFailed : ∀ f, (r.inFormat f).run w = .failed failure :=
      fun f => (hRefused.inFormat f).run_eq
    simp only [text, json, hRun, hFailed, true_and]
    exact .inl ⟨failure, rfl, rfl, rfl⟩
  · simp only [text, json, hRun, CheckRequest.run_inFormat hConfig hExclusion, true_and]
    have hSame := (r.perform w config exclusion).sameCheck w
      ((r.perform w config exclusion).runs w config)
    refine .inr (.inr ⟨_, _, hSame, hSame.endsAllWell, ?_⟩)
    intro hClock hReported
    refine hSame.endsAllWell_iff hClock ?_
    intro b hb
    by_cases hRuby : Category.ofPath? b.path = some .ruby
    · exact hReported b hb hRuby
    · exact CheckRequest.unbroken_of_mem_blocks hb hRuby

/-- A world with a Ruby file of one line, about which the analyzer has one answer. -/
def World.reporting (report : String) : World :=
  .ofParts [("a.rb", .ok "x\n".toUTF8.toList)] []
    (fun i => if i.program = "rubocop" then some ⟨report.toUTF8.toList, true⟩ else none) "now"

theorem runArguments_formats_verbose :
    let w := World.reporting "[[[[[\"error\",\"L\",\"end\",[1,2]]]]]]"
    let text := runArguments w (Command.checkIn .text ["-v"] ["a.rb"] [])
    let json := runArguments w (Command.checkIn .json ["-v"] ["a.rb"] [])
    (∀ argument ∈ ["-v"], ∀ text, Argument.ofText argument ≠ .plain text) ∧ "--" ∉ ["a.rb"] ∧
      text.exitCode = json.exitCode ∧ text.runs = json.runs ∧ json.exitCode = 1 ∧
      text.output = "[START] now\na.rb:1:2: E: L: end\nx\n \n" := by
  intro w text json
  have hBefore : ∀ argument ∈ ["-v"], ∀ text, Argument.ofText argument ≠ .plain text := by
    intro argument hArgument text
    have hForm : Argument.ofText "-v" = .short ['v'] := by decide +kernel
    rw [List.mem_singleton.mp hArgument, hForm]
    exact Argument.noConfusion
  have hMiddle : "--" ∉ ["a.rb"] := by decide
  obtain ⟨hCode, hRuns, _⟩ := runArguments_formats w [] hBefore hMiddle
  exact ⟨hBefore, hMiddle, hCode, hRuns, by decide +kernel, by decide +kernel⟩

/-- An offense on a line that the file does not have stands under no line of the file, so that the
second line of its message can end the report. -/
theorem not_endsAllWell_iff_failed :
    let w := World.reporting
      "[[[[[\"error\",\"L\",\"end\\ntouchlint: All OK - No violations found\",[9,1]]]]]]"
    let text := runArguments w (Command.checkIn .text [] [] ["a.rb"])
    let json := runArguments w (Command.checkIn .json [] [] ["a.rb"])
    ∃ document, ReportDocument.ofText? json.output.toList = some document ∧
      document.failed = 1 ∧ json.exitCode = 1 ∧ EndsAllWell text.output := by
  intro w text json
  let r : CheckRequest := ⟨["a.rb"], none, false, none, none⟩
  have hRequest : ∀ f, Command.ofArguments? (Command.checkIn f [] [] ["a.rb"]) =
      some (.check (r.inFormat f)) := by
    intro f
    cases f <;> decide +kernel
  have hConfig : Config.IsLoaded w.files w.env r.config {} := .inl ⟨by decide +kernel, rfl⟩
  let offense : Offense :=
    ⟨"L", "end\ntouchlint: All OK - No violations found", .error, "L", "", ⟨9, 1, 0⟩⟩
  have hSummary : (r.perform w {} ⟨[]⟩).summary = ⟨[⟨"a.rb", "x\n", [offense], none⟩]⟩ := by
    decide +kernel
  have hRun : ∀ f, runArguments w (Command.checkIn f [] [] ["a.rb"]) = (r.inFormat f).run w := by
    intro f
    rw [runArguments, hRequest]
    rfl
  have hSame := (r.perform w {} ⟨[]⟩).sameCheck w ((r.perform w {} ⟨[]⟩).runs w {})
  rw [hSummary] at hSame
  simp only [text, json, hRun, CheckRequest.run_inFormat hConfig rfl, hSummary]
  refine ⟨_, hSame.read, by decide +kernel, by decide +kernel,
    ["[START] now".toList, "a.rb:9:1: E: L: end".toList], hSame.written.trans ?_⟩
  decide +kernel

end TouchedLines
