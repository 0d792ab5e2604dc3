import Mathlib.Data.List.Forall2
import SigScan.Proofs.Finding
import SigScan.Proofs.Grammar

namespace SigScan

structure Entry.Carries (e : Entry) (library : String) (platform : Platform) (raw : String) : Prop where
  library : e.library = library
  value : e.given platform = some raw
  filled : raw ≠ ""
  bytes : raw.toList.head? ≠ some '@'

theorem Options.bearing_eq_signature_iff {o : Options} {e : Entry} {raw : String} :
    o.bearing e = .signature raw ↔ e.Carries o.library o.platform raw := by
  constructor
  · intro bears
    unfold Options.bearing at bears
    split at bears
    · rename_i library
      split at bears
      · cases bears
      · rename_i bytes
        split at bears
        · cases bears
        · rename_i text given
          obtain ⟨value, filled⟩ := Entry.value?_eq_some_iff.mp given
          cases bears
          exact ⟨library, value, filled, by simpa [Entry.isSymbol, given] using bytes⟩
    · cases bears
  · intro carries
    have given := Entry.value?_eq_some_iff.mpr ⟨carries.value, carries.filled⟩
    have bytes : e.isSymbol o.platform = false := by simpa [Entry.isSymbol, given] using carries.bytes
    simp [Options.bearing, carries.library, given, bytes]

instance (e : Entry) (library : String) (platform : Platform) :
    Decidable (∃ raw, e.Carries library platform raw) :=
  match bears : Options.bearing ⟨library, platform, .skip⟩ e with
  | .signature raw => isTrue ⟨raw, Options.bearing_eq_signature_iff.mp bears⟩
  | .foreign | .absent | .symbol => isFalse fun carries => by
    obtain ⟨raw, carries⟩ := carries
    have other := Options.bearing_eq_signature_iff (o := ⟨library, platform, .skip⟩).mpr carries
    rw [bears] at other
    cases other

namespace Scan

/-- What an entry adds to the report of a run that skips: a finding, a skipped signature or nothing. -/
inductive Share (s : Scan) (e : Entry) : Option (Finding ⊕ Skipped) → Prop
  | nothing (silent : ¬ ∃ raw, e.Carries s.options.library s.options.platform raw) : Share s e none
  | finding {raw : String} {f : Finding}
      (carries : e.Carries s.options.library s.options.platform raw)
      (gives : s.Gives (e, raw) f) (name : f.name = e.name) : Share s e (some (.inl f))
  | skipped {raw : String} {error : Signature.Error}
      (carries : e.Carries s.options.library s.options.platform raw)
      (failed : Signature.compile raw = .error error) (signature : error.signature = raw) :
      Share s e (some (.inr ⟨e.name, error⟩))

def share? (s : Scan) (e : Entry) : Option (Finding ⊕ Skipped) :=
  match s.fate e with
  | .ignored | .symbol => none
  | .searched f => some (.inl f)
  | .refused _ error => some (.inr ⟨e.name, error⟩)

theorem finding?_eq_share? (s : Scan) (e : Entry) : s.finding? e = (s.share? e).bind Sum.getLeft? := by
  cases known : s.fate e <;> simp [finding?, share?, known]

theorem skipped?_eq_share? (s : Scan) (e : Entry) : s.skipped? e = (s.share? e).bind Sum.getRight? := by
  cases known : s.fate e <;> simp [skipped?, share?, known]

theorem share?_of_silent {s : Scan} {e : Entry}
    (silent : ¬ ∃ raw, e.Carries s.options.library s.options.platform raw) : s.share? e = none := by
  cases bears : s.options.bearing e with
  | foreign => simp [share?, fate, bears]
  | absent => simp [share?, fate, bears]
  | symbol => simp [share?, fate, bears]
  | signature raw => exact absurd ⟨raw, Options.bearing_eq_signature_iff.mp bears⟩ silent

theorem share_share? (s : Scan) (e : Entry) : s.Share e (s.share? e) := by
  by_cases carries : ∃ raw, e.Carries s.options.library s.options.platform raw
  · obtain ⟨raw, carries⟩ := carries
    have bears := Options.bearing_eq_signature_iff.mpr carries
    cases compiled : Signature.compile raw with
    | ok pattern =>
      have given : s.share? e = some (.inl (s.locate e.name pattern)) := by
        simp [share?, fate, bears, compiled]
      rw [given]
      exact .finding carries ⟨pattern, compiled, rfl⟩ (s.locate_name e.name pattern)
    | error error =>
      have refused : s.share? e = some (.inr ⟨e.name, error⟩) := by
        simp [share?, fate, bears, compiled]
      rw [refused]
      exact .skipped carries compiled (Signature.compile_error_signature compiled)
  · rw [share?_of_silent carries]
    exact .nothing carries

theorem Share.isSome_iff {s : Scan} {e : Entry} {share : Option (Finding ⊕ Skipped)}
    (shares : s.Share e share) :
    share.isSome = true ↔ ∃ raw, e.Carries s.options.library s.options.platform raw := by
  cases shares with
  | nothing silent => simpa using silent
  | finding carries gives name => simpa using ⟨_, carries⟩
  | skipped carries failed signature => simpa using ⟨_, carries⟩

theorem length_findings_add_skipped (s : Scan) (entries : List Entry) :
    (entries.filterMap s.finding?).length + (entries.filterMap s.skipped?).length =
      entries.countP fun e => ∃ raw, e.Carries s.options.library s.options.platform raw := by
  induction entries with
  | nil => rfl
  | cons e entries ih =>
    have carries := (s.share_share? e).isSome_iff
    rw [List.filterMap_cons, List.filterMap_cons, finding?_eq_share?, skipped?_eq_share?,
      List.countP_cons, ← ih]
    cases known : s.share? e with
    | none =>
      rw [known] at carries
      have silent := carries.not.mp (by simp)
      simp [silent]
    | some share =>
      rw [known] at carries
      have speaks := carries.mp rfl
      cases share <;> simp [speaks] <;> omega

theorem foundCount_add_missingCount (r : Report) : r.foundCount + r.missingCount = r.findings.length := by
  have bound : r.foundCount ≤ r.findings.length := List.countP_le_length
  rw [Report.missingCount]
  omega

/-- A run that skips gives every entry its share of the report, in order and once, and hands on the
    findings as they are reported. -/
theorem skip_accounts_for_every_entry (binary : Array UInt8) (library : String) (platform : Platform)
    (entries : List Entry) :
    let s : Scan := ⟨binary, ⟨library, platform, .skip⟩⟩
    ∃ (report : Report) (shares : List (Option (Finding ⊕ Skipped))),
      (s.run entries).report = .ok report ∧ (s.run entries).seen = report.findings ∧
      List.Forall₂ s.Share entries shares ∧
      report.findings = shares.filterMap (·.bind Sum.getLeft?) ∧
      report.skipped = shares.filterMap (·.bind Sum.getRight?) ∧
      report.foundCount + report.missingCount + report.skipped.length =
        entries.countP fun e => ∃ raw, e.Carries library platform raw := by
  intro s
  have walked := trail_of_skip (s := s) rfl entries
  have whole := run_of_no_fault (congrArg Trail.fault walked)
  rw [walked] at whole
  refine ⟨_, entries.map s.share?, congrArg Outcome.report whole, congrArg Outcome.seen whole,
    ?_, ?_, ?_, ?_⟩
  · rw [List.forall₂_map_right_iff, List.forall₂_same]
    exact fun e _ => s.share_share? e
  · rw [List.filterMap_map]
    exact congrArg (entries.filterMap ·) (funext s.finding?_eq_share?)
  · rw [List.filterMap_map]
    exact congrArg (entries.filterMap ·) (funext s.skipped?_eq_share?)
  · rw [foundCount_add_missingCount]
    exact length_findings_add_skipped s entries

end Scan

end SigScan
