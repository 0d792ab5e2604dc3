import Mathlib.Data.List.Forall2
import SigScan.Proofs.Fate
import SigScan.Proofs.Grammar

namespace SigScan.Scan

theorem ambiguity_level (f : Finding) : ∀ event ∈ ambiguity f, event.level ≠ .error := by
  intro event member
  by_cases several : f.occurrences > 1
  · simp only [ambiguity, several, ↓reduceIte, List.mem_singleton] at member
    subst member
    simp [Event.level]
  · simp [ambiguity, several] at member

theorem told_level {s : Scan} {e : Entry} (smooth : (s.fate e).isRefused = false) :
    ∀ event ∈ s.told e, event.level ≠ .error := by
  intro event member
  cases known : s.fate e with
  | ignored => simp [told, known] at member
  | symbol =>
    simp only [told, known, List.mem_singleton] at member
    subst member
    simp [Event.level]
  | refused raw error =>
    rw [known] at smooth
    cases smooth
  | searched f =>
    simp only [told, known, List.mem_append, List.mem_singleton] at member
    rcases member with member | rfl
    · exact ambiguity_level f event member
    · simp [Event.level]

theorem gives_applicable {s : Scan} {before : List Entry}
    (smooth : ∀ e ∈ before, (s.fate e).isRefused = false) :
    List.Forall₂ s.Gives (s.options.applicable before) (before.filterMap s.finding?) := by
  induction before with
  | nil => exact .nil
  | cons e before ih =>
    have here := smooth e List.mem_cons_self
    have tail := ih fun later member => smooth later (List.mem_cons_of_mem _ member)
    rw [applicable_cons, List.filterMap_cons]
    cases bears : s.options.bearing e with
    | foreign => simpa [finding?, fate, bears] using tail
    | absent => simpa [finding?, fate, bears] using tail
    | symbol => simpa [finding?, fate, bears] using tail
    | signature raw =>
      cases compiled : Signature.compile raw with
      | ok pattern =>
        have given : s.finding? e = some (s.locate e.name pattern) :=
          finding?_eq_some_iff.mpr ⟨raw, bears, pattern, compiled, rfl⟩
        rw [given]
        exact .cons ⟨pattern, compiled, rfl⟩ tail
      | error error =>
        rw [fate_eq_refused_iff.mpr ⟨bears, compiled⟩] at here
        cases here

/-- A run that aborts is the run that skips, cut off at the first entry that is refused: it hands on
    the findings of the entries before and tells nothing after the error. -/
theorem abort_cuts_skip (binary : Array UInt8) (library : String) (platform : Platform)
    (entries : List Entry) :
    let skipping : Scan := ⟨binary, ⟨library, platform, .skip⟩⟩
    let aborting : Scan := ⟨binary, ⟨library, platform, .abort⟩⟩
    ∃ report, (skipping.run entries).report = .ok report ∧
      match report.skipped with
      | [] => aborting.run entries = skipping.run entries
      | first :: _ =>
        (aborting.run entries).report = .error first.error ∧
        ∃ before e after raw, entries = before ++ e :: after ∧
          aborting.options.bearing e = .signature raw ∧
          Signature.compile raw = .error first.error ∧ first.name = e.name ∧
          (Failure.signature first.error).offending? = some raw ∧
          List.Forall₂ aborting.Gives (aborting.options.applicable before) (aborting.run entries).seen ∧
          (aborting.run entries).seen <+: report.findings ∧
          (aborting.run entries).log <+: (skipping.run entries).log ∧
          ∃ quiet, (aborting.run entries).log = quiet ++ [.malformed e.name raw] ∧
            ∀ event ∈ quiet, event.level ≠ .error := by
  intro skipping aborting
  have whole := run_of_no_fault (congrArg Trail.fault (trail_of_skip (s := skipping) rfl entries))
  refine ⟨_, congrArg Outcome.report whole, ?_⟩
  rcases smooth_or_refused skipping entries with
    smooth | ⟨before, e, after, raw, error, rfl, smooth, refused⟩
  · have walked := trail_of_smooth smooth
    have same : aborting.trail entries = skipping.trail entries :=
      (trail_of_smooth (s := aborting) smooth).trans walked.symm
    have sound : (aborting.trail entries).fault = none := by rw [same, walked]
    rw [run_of_no_fault sound, whole, same, walked]
  · have cut := trail_of_abort (s := aborting) rfl smooth refused after
    have aborted := run_of_fault (congrArg Trail.fault cut)
    have went_on : skipping.trail (e :: after) =
        (skipping.trail after).afterSkipped e.name raw error := by
      rw [trail_cons, refused]
    have walked := trail_append smooth (e :: after)
    rw [went_on] at walked
    obtain ⟨bears, failed⟩ := fate_eq_refused_iff.mp refused
    rw [aborted, whole, walked, cut]
    refine ⟨rfl, before, e, after, raw, rfl, bears, failed, rfl, ?_, ?_, ?_, ?_, ?_⟩
    · exact congrArg some (Signature.compile_error_signature failed)
    · exact gives_applicable (s := aborting) smooth
    · exact List.prefix_append _ _
    · have same : aborting.told = skipping.told := rfl
      rw [List.cons_append, List.prefix_cons_inj, List.append_assoc, same,
        List.prefix_append_right_inj]
      exact ⟨_, rfl⟩
    · refine ⟨_ :: before.flatMap aborting.told, rfl, ?_⟩
      intro event member
      rcases List.mem_cons.mp member with rfl | member
      · simp [Event.level]
      · obtain ⟨earlier, inside, told⟩ := List.mem_flatMap.mp member
        exact told_level (s := aborting) (smooth earlier inside) event told

end SigScan.Scan
