import Mathlib.Data.List.Forall2
import SigScan.Proofs.Fate

namespace SigScan

/-- The entries have one name and one value for the platform. No value and an empty one are alike. -/
structure Entry.Alike (platform : Platform) (a b : Entry) : Prop where
  name : a.name = b.name
  value : (a.given platform).getD "" = (b.given platform).getD ""

theorem Entry.Alike.value? {platform : Platform} {a b : Entry} (alike : Alike platform a b) :
    a.value? platform = b.value? platform := by
  have same := alike.value
  ext raw
  rw [value?_eq_some_iff, value?_eq_some_iff]
  cases left : a.given platform <;> cases right : b.given platform <;> grind

theorem Options.bearing_of_alike {o : Options} {a b : Entry} (library : a.library = b.library)
    (alike : Entry.Alike o.platform a b) : o.bearing a = o.bearing b := by
  unfold Options.bearing Entry.isSymbol
  rw [library, alike.value?]

namespace Scan

theorem fate_of_foreign {s : Scan} {e : Entry} (foreign : e.library ≠ s.options.library) :
    s.fate e = .ignored := by
  simp only [fate, Options.bearing, foreign, ↓reduceIte]

theorem fate_of_alike {s : Scan} {a b : Entry} (library : a.library = b.library)
    (alike : Entry.Alike s.options.platform a b) : s.fate a = s.fate b := by
  simp only [fate, Options.bearing_of_alike library alike, alike.name]

theorem trail_own (s : Scan) (entries : List Entry) :
    s.trail (entries.filter (·.library = s.options.library)) = s.trail entries := by
  induction entries with
  | nil => rfl
  | cons e entries ih =>
    by_cases own : e.library = s.options.library
    · rw [List.filter_cons_of_pos (by simpa using own), trail_cons, trail_cons, ih]
    · rw [List.filter_cons_of_neg (by simpa using own), trail_cons, fate_of_foreign own, ih]

theorem trail_alike {s : Scan} {a b : List Entry}
    (own : ∀ e ∈ a ++ b, e.library = s.options.library)
    (alike : List.Forall₂ (Entry.Alike s.options.platform) a b) : s.trail a = s.trail b := by
  induction alike with
  | nil => rfl
  | @cons x y a b first _ ih =>
    have library : x.library = y.library := by
      rw [own x (by simp), own y (by simp)]
    have rest : ∀ e ∈ a ++ b, e.library = s.options.library := by
      intro e member
      apply own e
      rcases List.mem_append.mp member with member | member
      · simp [member]
      · simp [member]
    rw [trail_cons, trail_cons, fate_of_alike library first, first.name, ih rest]

/-- A run sees nothing of the entries for other libraries, and of its own only their names and
    their values for its platform: what it reports, hands on and tells hangs on nothing else. -/
theorem run_sees_own_library_and_platform {s : Scan} {a b : List Entry}
    (alike : List.Forall₂ (Entry.Alike s.options.platform)
      (a.filter (·.library = s.options.library)) (b.filter (·.library = s.options.library))) :
    s.run a = s.run b := by
  have own : ∀ e ∈ a.filter (·.library = s.options.library) ++
      b.filter (·.library = s.options.library), e.library = s.options.library := by
    intro e member
    rw [← List.filter_append] at member
    simpa using (List.mem_filter.mp member).2
  have walked : s.trail a = s.trail b := by
    rw [← trail_own s a, ← trail_own s b, trail_alike own alike]
  simp only [run, walked]

theorem run_sees_own_engine_entries :
    let s : Scan := ⟨#[0x90, 0xEC, 0x90], ⟨"engine", .linux, .abort⟩⟩
    let a : List Entry :=
      [⟨"Think", "tf", "engine", none, some "\\x90"⟩, ⟨"Touch", "tf", "engine", none, none⟩,
        ⟨"Use", "tf", "engine", none, some "@_ZN3UseEv"⟩]
    let b : List Entry :=
      [⟨"Spawn", "hl2", "server", none, some "\\xZZ"⟩,
        ⟨"Think", "hl2", "engine", some "\\xZZ", some "\\x90"⟩,
        ⟨"Touch", "hl2", "engine", some "\\x55", some ""⟩,
        ⟨"Use", "tf", "server", none, some "@_ZN3UseEv"⟩,
        ⟨"Use", "tf", "engine", none, some "@_ZN3UseEv"⟩]
    List.Forall₂ (Entry.Alike s.options.platform) (a.filter (·.library = s.options.library))
      (b.filter (·.library = s.options.library)) ∧ s.run a = s.run b := by
  intro s a b
  have own_a : a.filter (·.library = s.options.library) = a := by decide +kernel
  have own_b : b.filter (·.library = s.options.library) = [b[1], b[2], b[4]] := by decide +kernel
  have alike : List.Forall₂ (Entry.Alike s.options.platform)
      (a.filter (·.library = s.options.library)) (b.filter (·.library = s.options.library)) := by
    rw [own_a, own_b]
    exact .cons ⟨rfl, rfl⟩ (.cons ⟨rfl, rfl⟩ (.cons ⟨rfl, rfl⟩ .nil))
  exact ⟨alike, run_sees_own_library_and_platform alike⟩

end Scan

end SigScan
