import SigScan.Failure
import SigScan.Scan

namespace SigScan

inductive Fate
  | ignored
  | symbol
  | refused (raw : String) (error : Signature.Error)
  | searched (f : Finding)
deriving DecidableEq, Repr

def Fate.isRefused : Fate → Bool
  | .refused .. => true
  | _ => false

namespace Scan

def fate (s : Scan) (e : Entry) : Fate :=
  match s.options.bearing e with
  | .foreign | .absent => .ignored
  | .symbol => .symbol
  | .signature raw =>
    match Signature.compile raw with
    | .ok pattern => .searched (s.locate e.name pattern)
    | .error error => .refused raw error

def finding? (s : Scan) (e : Entry) : Option Finding :=
  match s.fate e with
  | .searched f => some f
  | _ => none

def skipped? (s : Scan) (e : Entry) : Option Skipped :=
  match s.fate e with
  | .refused _ error => some ⟨e.name, error⟩
  | _ => none

/-- What is told of an entry by a run that goes on past it. -/
def told (s : Scan) (e : Entry) : List Event :=
  match s.fate e with
  | .ignored => []
  | .symbol => [.symbol e.name s.options.platform]
  | .refused raw error => [.malformed e.name raw, .skipping e.name error]
  | .searched f => ambiguity f ++ [.located f.name f.offset]

def Gives (s : Scan) (source : Entry × String) (f : Finding) : Prop :=
  ∃ pattern, Signature.compile source.2 = .ok pattern ∧ s.locate source.1.name pattern = f

theorem fate_eq_refused_iff {s : Scan} {e : Entry} {raw : String} {error : Signature.Error} :
    s.fate e = .refused raw error ↔
      s.options.bearing e = .signature raw ∧ Signature.compile raw = .error error := by
  constructor
  · intro refused
    unfold fate at refused
    split at refused
    · cases refused
    · cases refused
    · cases refused
    · rename_i text bears
      split at refused
      · cases refused
      · rename_i failed
        cases refused
        exact ⟨bears, failed⟩
  · intro reason
    obtain ⟨bears, failed⟩ := reason
    simp only [fate, bears, failed]

theorem fate_eq_searched_iff {s : Scan} {e : Entry} {f : Finding} :
    s.fate e = .searched f ↔ ∃ raw, s.options.bearing e = .signature raw ∧ s.Gives (e, raw) f := by
  constructor
  · intro searched
    unfold fate at searched
    split at searched
    · cases searched
    · cases searched
    · cases searched
    · rename_i raw bears
      split at searched
      · rename_i pattern compiled
        cases searched
        exact ⟨raw, bears, pattern, compiled, rfl⟩
      · cases searched
  · intro reason
    obtain ⟨raw, bears, pattern, compiled, located⟩ := reason
    simp only [fate, bears, compiled, located]

theorem mem_applicable_iff {o : Options} {entries : List Entry} {e : Entry} {raw : String} :
    (e, raw) ∈ o.applicable entries ↔ e ∈ entries ∧ o.bearing e = .signature raw := by
  rw [Options.applicable, List.mem_filterMap]
  constructor
  · intro chosen
    obtain ⟨entry, member, bears⟩ := chosen
    split at bears
    · cases bears
      exact ⟨member, by assumption⟩
    · cases bears
  · intro chosen
    obtain ⟨member, bears⟩ := chosen
    exact ⟨e, member, by simp only [bears]⟩

theorem applicable_cons (s : Scan) (e : Entry) (entries : List Entry) :
    s.options.applicable (e :: entries) =
      (match s.options.bearing e with
        | .signature raw => [(e, raw)]
        | _ => []) ++ s.options.applicable entries := by
  simp only [Options.applicable, List.filterMap_cons]
  cases s.options.bearing e <;> rfl

theorem trail_cons (s : Scan) (e : Entry) (entries : List Entry) :
    s.trail (e :: entries) =
      match s.fate e with
      | .ignored => s.trail entries
      | .symbol => (s.trail entries).afterSymbol e.name s.options.platform
      | .searched f => (s.trail entries).afterFinding f
      | .refused raw error =>
        match s.options.policy with
        | .abort => { log := [.malformed e.name raw], fault := some error }
        | .skip => (s.trail entries).afterSkipped e.name raw error := by
  rw [trail, fate]
  cases s.options.bearing e with
  | foreign => rfl
  | absent => rfl
  | symbol => rfl
  | signature raw =>
    cases compiled : Signature.compile raw with
    | ok pattern => simp only [compiled]
    | error error =>
      cases s.options.policy <;> simp only [compiled]

/-- Entries that are not refused add their findings and what is told of them, whatever comes later
    and whatever the policy. -/
theorem trail_append {s : Scan} {before : List Entry}
    (smooth : ∀ e ∈ before, (s.fate e).isRefused = false) (after : List Entry) :
    s.trail (before ++ after) =
      { findings := before.filterMap s.finding? ++ (s.trail after).findings
        skipped := (s.trail after).skipped
        log := before.flatMap s.told ++ (s.trail after).log
        fault := (s.trail after).fault } := by
  induction before with
  | nil => rfl
  | cons e before ih =>
    have here := smooth e List.mem_cons_self
    have tail := ih fun later member => smooth later (List.mem_cons_of_mem _ member)
    rw [List.cons_append, trail_cons, tail]
    cases known : s.fate e with
    | ignored => simp [finding?, told, known]
    | symbol => simp [finding?, told, known, Trail.afterSymbol]
    | searched f => simp [finding?, told, known, Trail.afterFinding]
    | refused raw error => simp [known, Fate.isRefused] at here

theorem trail_of_skip {s : Scan} (skips : s.options.policy = .skip) (entries : List Entry) :
    s.trail entries =
      { findings := entries.filterMap s.finding?
        skipped := entries.filterMap s.skipped?
        log := entries.flatMap s.told } := by
  induction entries with
  | nil => rfl
  | cons e entries ih =>
    rw [trail_cons, ih, skips]
    cases known : s.fate e with
    | ignored => simp [finding?, skipped?, told, known]
    | symbol => simp [finding?, skipped?, told, known, Trail.afterSymbol]
    | searched f => simp [finding?, skipped?, told, known, Trail.afterFinding]
    | refused raw error => simp [finding?, skipped?, told, known, Trail.afterSkipped]

theorem run_of_fault {s : Scan} {entries : List Entry} {error : Signature.Error}
    (faulty : (s.trail entries).fault = some error) :
    s.run entries = ⟨.error error, (s.trail entries).findings,
      .scanning s.binary.size s.options.library s.options.platform :: (s.trail entries).log⟩ := by
  simp only [run, faulty]

theorem run_of_no_fault {s : Scan} {entries : List Entry} (sound : (s.trail entries).fault = none) :
    s.run entries = ⟨.ok ⟨(s.trail entries).findings, (s.trail entries).skipped⟩,
      (s.trail entries).findings,
      .scanning s.binary.size s.options.library s.options.platform :: (s.trail entries).log ++
        [summary ⟨(s.trail entries).findings, (s.trail entries).skipped⟩]⟩ := by
  simp only [run, sound]

theorem run_seen (s : Scan) (entries : List Entry) :
    (s.run entries).seen = (s.trail entries).findings := by
  cases fault : (s.trail entries).fault with
  | none => rw [run_of_no_fault fault]
  | some error => rw [run_of_fault fault]

theorem smooth_or_refused (s : Scan) (entries : List Entry) :
    (∀ e ∈ entries, (s.fate e).isRefused = false) ∨
      ∃ before e after raw error, entries = before ++ e :: after ∧
        (∀ earlier ∈ before, (s.fate earlier).isRefused = false) ∧ s.fate e = .refused raw error := by
  cases first : entries.find? fun e => (s.fate e).isRefused with
  | none =>
    left
    simpa using first
  | some e =>
    right
    obtain ⟨refused, before, after, same, smooth⟩ := List.find?_eq_some_iff_append.mp first
    cases known : s.fate e with
    | refused raw error => exact ⟨before, e, after, raw, error, same, by simpa using smooth, known⟩
    | ignored => simp [known, Fate.isRefused] at refused
    | symbol => simp [known, Fate.isRefused] at refused
    | searched f => simp [known, Fate.isRefused] at refused

theorem trail_of_abort {s : Scan} (aborts : s.options.policy = .abort) {before : List Entry}
    (smooth : ∀ e ∈ before, (s.fate e).isRefused = false) {e : Entry} {raw : String}
    {error : Signature.Error} (refused : s.fate e = .refused raw error) (after : List Entry) :
    s.trail (before ++ e :: after) =
      { findings := before.filterMap s.finding?
        log := before.flatMap s.told ++ [.malformed e.name raw]
        fault := some error } := by
  rw [trail_append smooth, trail_cons, refused, aborts]
  simp

theorem trail_of_smooth {s : Scan} {entries : List Entry}
    (smooth : ∀ e ∈ entries, (s.fate e).isRefused = false) :
    s.trail entries =
      { findings := entries.filterMap s.finding?
        log := entries.flatMap s.told } := by
  have whole := trail_append smooth []
  simpa [trail] using whole

theorem findings_prefix (s : Scan) (entries : List Entry) :
    (s.trail entries).findings <+: entries.filterMap s.finding? := by
  cases policy : s.options.policy with
  | skip =>
    exact ⟨[], by rw [trail_of_skip policy, List.append_nil]⟩
  | abort =>
    rcases smooth_or_refused s entries with smooth | ⟨before, e, after, raw, error, rfl, smooth, refused⟩
    · exact ⟨[], by rw [trail_of_smooth smooth, List.append_nil]⟩
    · rw [trail_of_abort policy smooth refused, List.filterMap_append]
      exact List.prefix_append _ _

theorem findings_of_no_fault {s : Scan} {entries : List Entry} (sound : (s.trail entries).fault = none) :
    (s.trail entries).findings = entries.filterMap s.finding? := by
  cases policy : s.options.policy with
  | skip => rw [trail_of_skip policy]
  | abort =>
    rcases smooth_or_refused s entries with smooth | ⟨before, e, after, raw, error, rfl, smooth, refused⟩
    · rw [trail_of_smooth smooth]
    · rw [trail_of_abort policy smooth refused] at sound
      cases sound

theorem findings_of_run_ok {s : Scan} {entries : List Entry} {report : Report}
    (done : (s.run entries).report = .ok report) : report.findings = entries.filterMap s.finding? := by
  cases fault : (s.trail entries).fault with
  | none =>
    rw [run_of_no_fault fault] at done
    cases done
    exact findings_of_no_fault fault
  | some error =>
    rw [run_of_fault fault] at done
    cases done

theorem finding?_eq_some_iff {s : Scan} {e : Entry} {f : Finding} :
    s.finding? e = some f ↔ ∃ raw, s.options.bearing e = .signature raw ∧ s.Gives (e, raw) f := by
  rw [← fate_eq_searched_iff, finding?]
  cases s.fate e <;> simp

theorem gives_of_seen {s : Scan} {entries : List Entry} {f : Finding}
    (seen : f ∈ (s.run entries).seen) :
    ∃ e raw, (e, raw) ∈ s.options.applicable entries ∧ s.Gives (e, raw) f := by
  rw [run_seen] at seen
  obtain ⟨e, member, given⟩ := List.mem_filterMap.mp ((s.findings_prefix entries).subset seen)
  obtain ⟨raw, bears, gives⟩ := finding?_eq_some_iff.mp given
  exact ⟨e, raw, mem_applicable_iff.mpr ⟨member, bears⟩, gives⟩

end Scan

end SigScan
