import Mathlib.Data.List.TakeWhile
import SigScan.Proofs.Inputs

namespace SigScan.Command

def Switch.ofLetter? : Char → Option Switch
  | 'q' => some .quiet
  | 'v' => some .verbose
  | _ => none

/-- The switches among the letters behind one dash. The letter of an option with a value ends them,
    since the value is what follows it. -/
def switchesOf (letters : List Char) : List Switch :=
  (letters.takeWhile (· ≠ 'c')).filterMap Switch.ofLetter?

def switchesIn (argument : String) : List Switch :=
  match argument.toList with
  | '-' :: '-' :: name => (Switch.ofName? (String.ofList name)).toList
  | '-' :: letters => switchesOf letters
  | _ => []

def switches (arguments : List String) : List Switch := arguments.flatMap switchesIn

def Arguments.flag (a : Arguments) : Switch → Option Bool
  | .quiet => a.settings.quiet
  | .keepGoing => a.settings.keepGoing
  | .verbose => if a.verbose then some true else none

def raised (given : List Switch) (switch : Switch) (before : Option Bool) : Option Bool :=
  if switch ∈ given then some true else before

variable {a b : Arguments} {switch : Switch}

theorem raised_raised (first later : List Switch) (before : Option Bool) :
    raised later switch (raised first switch before) = raised (first ++ later) switch before := by
  unfold raised
  by_cases inside : switch ∈ later <;> simp [inside]

theorem once_eq_ok_iff {α : Type} {given value result : Option α} :
    once given value = .ok result ↔ given = none ∧ value.isSome ∧ result = value := by
  cases given <;> cases value <;> simp [once, eq_comm]

theorem flag_turnOn {other : Switch} (turned : a.turnOn other = .ok b) :
    b.flag switch = raised [other] switch (a.flag switch) := by
  cases other with
  | quiet =>
    obtain ⟨value, given, same⟩ := bind_eq_ok_iff.mp turned
    cases same
    cases (once_eq_ok_iff.mp given).2.2
    cases switch <;> rfl
  | keepGoing =>
    obtain ⟨value, given, same⟩ := bind_eq_ok_iff.mp turned
    cases same
    cases (once_eq_ok_iff.mp given).2.2
    cases switch <;> rfl
  | verbose =>
    simp only [Arguments.turnOn] at turned
    split at turned
    · cases turned
    · cases turned
      cases switch <;> rfl

theorem flag_choose {choice : Choice} {value : String} (chosen : a.choose choice value = .ok b) :
    b.flag switch = a.flag switch := by
  cases choice <;>
  · obtain ⟨given, -, same⟩ := bind_eq_ok_iff.mp chosen
    cases same
    cases switch <;> rfl

theorem switchesOf_cons {letter : Char} {other : Switch} (known : Switch.ofLetter? letter = some other)
    (letters : List Char) : switchesOf (letter :: letters) = other :: switchesOf letters := by
  have plain : letter ≠ 'c' := by
    intro same
    subst same
    cases known
  rw [switchesOf, List.takeWhile_cons_of_pos (by simpa using plain), List.filterMap_cons_some known]
  rfl

theorem flag_readLetters {letters : List Char} {wanting : Option Choice}
    (accepted : readLetters a letters = .ok ⟨b, wanting⟩) :
    b.flag switch = raised (switchesOf letters) switch (a.flag switch) := by
  fun_induction readLetters a letters with
  | case1 a =>
    cases accepted
    rfl
  | case2 a letters ih =>
    obtain ⟨turned, quiet, accepted⟩ := bind_eq_ok_iff.mp accepted
    rw [ih _ accepted, flag_turnOn quiet, raised_raised, switchesOf_cons rfl]
    rfl
  | case3 a letters ih =>
    obtain ⟨turned, verbose, accepted⟩ := bind_eq_ok_iff.mp accepted
    rw [ih _ accepted, flag_turnOn verbose, raised_raised, switchesOf_cons rfl]
    rfl
  | case4 a value =>
    obtain ⟨chosen, config, same⟩ := bind_eq_ok_iff.mp accepted
    cases same
    exact flag_choose config
  | case5 a =>
    cases accepted
    rfl
  | case6 a value =>
    obtain ⟨chosen, config, same⟩ := bind_eq_ok_iff.mp accepted
    cases same
    exact flag_choose config
  | case7 => cases accepted
  | case8 => cases accepted

theorem splitLong_plain {text : List Char} (plain : '=' ∉ text) :
    splitLong text = (String.ofList text, none) := by
  have whole : ∀ c ∈ text, decide (c ≠ '=') = true := fun c member =>
    decide_eq_true fun same => plain (same ▸ member)
  simp only [splitLong, List.takeWhile_eq_self_iff.mpr whole, List.dropWhile_eq_nil_iff.mpr whole]

theorem splitLong_assigned {text : List Char} (assigned : '=' ∈ text) :
    ∃ name value, splitLong text = (name, some value) := by
  unfold splitLong
  split
  · rename_i dropped
    have kept := List.dropWhile_eq_nil_iff.mp dropped '=' assigned
    simp at kept
  · exact ⟨_, _, rfl⟩

theorem equals_not_mem_name {name : String} {other : Switch}
    (known : Switch.ofName? name = some other) : '=' ∉ name.toList := by
  unfold Switch.ofName? at known
  split at known
  · decide
  · decide
  · decide
  · cases known

theorem flag_readLong {text : List Char} {wanting : Option Choice}
    (accepted : readLong a text = .ok ⟨b, wanting⟩) :
    b.flag switch = raised (Switch.ofName? (String.ofList text)).toList switch (a.flag switch) := by
  unfold readLong at accepted
  by_cases assigned : '=' ∈ text
  · have unknown : Switch.ofName? (String.ofList text) = none := by
      rw [Option.eq_none_iff_forall_ne_some]
      intro other known
      exact equals_not_mem_name known (by simpa using assigned)
    obtain ⟨name, value, split⟩ := splitLong_assigned assigned
    rw [unknown]
    rw [split] at accepted
    cases choice : Choice.ofName? name with
    | none => simp [choice] at accepted
    | some choice' =>
      simp only [choice] at accepted
      obtain ⟨chosen, chose, same⟩ := bind_eq_ok_iff.mp accepted
      cases same
      exact flag_choose chose
  · rw [splitLong_plain assigned] at accepted
    cases known : Switch.ofName? (String.ofList text) with
    | some other =>
      simp only [known] at accepted
      obtain ⟨turned, turn, same⟩ := bind_eq_ok_iff.mp accepted
      cases same
      exact flag_turnOn turn
    | none =>
      cases choice : Choice.ofName? (String.ofList text) with
      | none => simp [known, choice] at accepted
      | some choice' =>
        simp only [known, choice] at accepted
        cases accepted
        rfl

theorem flag_readArgument {argument : String} {others : List String} {wanting : Option Choice}
    (accepted : readArgument a argument others = .ok ⟨b, wanting⟩) :
    b.flag switch = raised (switchesIn argument) switch (a.flag switch) := by
  unfold readArgument at accepted
  unfold switchesIn
  split at accepted
  · rename_i dashes
    rw [dashes]
    split at accepted
    · cases accepted
      rfl
    · cases accepted
  · rename_i text _ long
    rw [long]
    exact flag_readLong accepted
  · rename_i c cs _ single letters
    rw [letters]
    split
    · rename_i name long
      exact absurd (List.cons.inj (List.cons.inj long).2).1 single
    · rename_i same
      cases same
      exact flag_readLetters accepted
    · rename_i other
      exact absurd rfl (other (c :: cs))
  · cases accepted

theorem switchesIn_of_not_isOption {value : String} (plain : ¬ isOption value = true) :
    switchesIn value = [] := by
  unfold isOption at plain
  unfold switchesIn
  split at plain
  · exact absurd rfl plain
  · rename_i other
    split
    · rename_i name long
      exact absurd long (other '-' name)
    · rename_i letters _ short
      cases letters with
      | nil => rfl
      | cons c letters => exact absurd short (other c letters)
    · rfl

/-- Reading turns on the switches that stand in the arguments, and leaves the others alone. -/
theorem flag_read {arguments : List String} (accepted : read a arguments = .ok b) :
    b.flag switch = raised (switches arguments) switch (a.flag switch) := by
  fun_induction read a arguments with
  | case1 a =>
    cases accepted
    rfl
  | case2 => cases accepted
  | case3 a argument arguments next first ih =>
    rw [ih accepted, flag_readArgument first, raised_raised]
    rfl
  | case4 => cases accepted
  | case5 => cases accepted
  | case6 => cases accepted
  | case7 a argument next choice value arguments plain chosen chose first ih =>
    rw [ih accepted, flag_choose chose, flag_readArgument first, raised_raised, switches, switches,
      List.flatMap_cons, List.flatMap_cons, switchesIn_of_not_isOption plain, List.nil_append]

end SigScan.Command
