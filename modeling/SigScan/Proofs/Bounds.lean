import SigScan.Proofs.Grammar
import SigScan.Proofs.History

namespace SigScan

inductive Fault
  | overflow (left right : Nat)
  | outside (first stop size : Nat)
deriving DecidableEq, Repr

def addWord (left right : Nat) : Except Fault Nat :=
  if left + right < UInt64.size then .ok (left + right) else .error (.overflow left right)

def slice (bytes : Array UInt8) (first stop : Nat) : Except Fault (Array UInt8) :=
  if first ≤ stop ∧ stop ≤ bytes.size then .ok (bytes.extract first stop)
  else .error (.outside first stop bytes.size)

theorem ok_bind {ε α β : Type} (value : α) (next : α → Except ε β) :
    (Except.ok value >>= next) = next value := rfl

theorem addWord_of_lt {left right : Nat} (fits : left + right < UInt64.size) :
    addWord left right = .ok (left + right) := if_pos fits

theorem addWord_eq_ok {left right sum : Nat} (added : addWord left right = .ok sum) :
    sum = left + right := by
  unfold addWord at added
  split at added <;> cases added
  rfl

theorem slice_of_le {bytes : Array UInt8} {first stop : Nat} (ordered : first ≤ stop)
    (inside : stop ≤ bytes.size) : slice bytes first stop = .ok (bytes.extract first stop) :=
  if_pos ⟨ordered, inside⟩

theorem findIdx?_extract {bytes : Array UInt8} {value : UInt8} {first count : Nat}
    (inside : first + count ≤ bytes.size) :
    (bytes.extract first (first + count)).findIdx? (· == value) =
      (firstPosition? bytes value first count).map (· - first) := by
  have size : (bytes.extract first (first + count)).size = count := by
    rw [Array.size_extract]
    omega
  cases search : firstPosition? bytes value first count with
  | none =>
    have absent := firstPosition?_eq_none_iff.mp search
    rw [Option.map_none, Array.findIdx?_eq_none_iff]
    intro byte member
    obtain ⟨i, bound, rfl⟩ := Array.mem_iff_getElem.mp member
    have missing := absent (first + i) (by omega) (by omega)
    rw [Array.getElem?_eq_getElem (by omega)] at missing
    rw [Array.getElem_extract, beq_eq_false_iff_ne]
    exact fun same => missing (congrArg some same)
  | some position =>
    obtain ⟨above, below, there, absent⟩ := firstPosition?_eq_some_iff.mp search
    rw [Option.map_some, Array.findIdx?_eq_some_iff_getElem]
    refine ⟨by omega, ?_, ?_⟩
    · have back : first + (position - first) = position := by omega
      rw [Array.getElem_extract, beq_iff_eq]
      simp only [back]
      exact (Array.getElem?_eq_some_iff.mp there).2
    · intro i earlier same
      rw [Array.getElem_extract, beq_iff_eq] at same
      exact absent (first + i) (by omega) (by omega)
        (Array.getElem?_eq_some_iff.mpr ⟨by omega, same⟩)

theorem all_zip_extract {bytes : Array UInt8} {pattern : Pattern} {offset : Nat}
    (inside : offset + pattern.length ≤ bytes.size) :
    ((bytes.extract offset (offset + pattern.length)).toList.zip pattern).all
      (fun laid => laid.2.accepts laid.1) = pattern.acceptsAt bytes offset := by
  rw [Array.toList_extract, List.extract_eq_take_drop, Nat.add_sub_cancel_left]
  induction pattern generalizing offset with
  | nil => simp [Pattern.acceptsAt]
  | cons descriptor rest ih =>
    rw [List.length_cons] at inside
    have bound : offset < bytes.size := by omega
    have here : bytes[offset]? = some bytes[offset] := Array.getElem?_eq_getElem bound
    rw [List.length_cons, List.drop_eq_getElem_cons (by simpa using bound), List.take_succ_cons,
      List.zip_cons_cons, List.all_cons, ih (by omega), Pattern.acceptsAt, here]
    rfl

namespace Cursor

def region (c : Cursor) (index last : Nat) : Except Fault (Array UInt8) := do
  let first ← addWord c.next index
  let final ← addWord last index
  let stop ← addWord final 1
  slice c.bytes first stop

def checkedCandidate? (c : Cursor) (last : Nat) : Except Fault (Option Nat) :=
  match c.pattern.anchor? with
  | some (index, value) => do
    let region ← c.region index last
    match region.findIdx? (· == value) with
    | some position => some <$> addWord c.next position
    | none => pure none
  | none => pure (some c.next)

def checkedAccepts (c : Cursor) (offset : Nat) : Except Fault Bool := do
  let stop ← addWord offset c.pattern.length
  let window ← slice c.bytes offset stop
  pure ((window.toList.zip c.pattern).all fun laid => laid.2.accepts laid.1)

inductive Turn
  | exhausted (stopped : Cursor)
  | found (offset : Nat) (moved : Cursor)
  | refused (moved : Cursor)
deriving DecidableEq, Repr

def Turn.cursor : Turn → Cursor
  | .exhausted stopped => stopped
  | .found _ moved => moved
  | .refused moved => moved

def checkedTurn (c : Cursor) (last : Nat) : Except Fault Turn := do
  match ← c.checkedCandidate? last with
  | none =>
    let next ← addWord last 1
    pure (.exhausted { c with next })
  | some offset =>
    let next ← addWord offset 1
    let accepted ← c.checkedAccepts offset
    pure (if accepted then .found offset { c with next } else .refused { c with next })

theorem checkedCandidate?_le {c : Cursor} {last offset : Nat}
    (found : c.checkedCandidate? last = .ok (some offset)) : c.next ≤ offset := by
  unfold checkedCandidate? at found
  split at found
  · obtain ⟨region, -, found⟩ := bind_eq_ok_iff.mp found
    split at found
    · rw [map_eq_pure_bind] at found
      obtain ⟨sum, added, same⟩ := bind_eq_ok_iff.mp found
      cases same
      have := addWord_eq_ok added
      omega
    · cases found
  · cases found
    exact Nat.le_refl _

theorem checkedTurn_refused {c moved : Cursor} {last : Nat}
    (turned : c.checkedTurn last = .ok (.refused moved)) : c.next < moved.next := by
  obtain ⟨candidate, found, rest⟩ := bind_eq_ok_iff.mp turned
  cases candidate with
  | none =>
    obtain ⟨next, -, same⟩ := bind_eq_ok_iff.mp rest
    cases same
  | some offset =>
    obtain ⟨next, added, rest⟩ := bind_eq_ok_iff.mp rest
    obtain ⟨accepted, -, same⟩ := bind_eq_ok_iff.mp rest
    have := checkedCandidate?_le found
    have := addWord_eq_ok added
    cases accepted <;> cases same
    simp only
    omega

def checkedSeek (c : Cursor) (last : Nat) : Except Fault (Option Nat × Cursor) :=
  if _ : c.next ≤ last then
    match _ : c.checkedTurn last with
    | .error fault => .error fault
    | .ok (.exhausted stopped) => .ok (none, stopped)
    | .ok (.found offset moved) => .ok (some offset, moved)
    | .ok (.refused moved) => moved.checkedSeek last
  else .ok (none, c)
termination_by last + 1 - c.next
decreasing_by
  have := checkedTurn_refused ‹_›
  omega

def checkedAdvance (c : Cursor) : Except Fault (Option Nat × Cursor) :=
  match c.last? with
  | none => .ok (none, c)
  | some last => c.checkedSeek last

/-- What a turn relies on: the region and the window lie within the bytes, and every sum fits a
    word. -/
structure InBounds (c : Cursor) (last : Nat) : Prop where
  region : ∀ index value, c.pattern.anchor? = some (index, value) →
    c.next + index ≤ last + index ∧ last + index < c.bytes.size
  window : ∀ offset, c.candidate? last = some offset → offset + c.pattern.length ≤ c.bytes.size
  regionWords : ∀ index value, c.pattern.anchor? = some (index, value) →
    c.next + index < UInt64.size ∧ last + index + 1 < UInt64.size
  candidateWord : ∀ index value place, c.pattern.anchor? = some (index, value) →
    (c.bytes.extract (c.next + index) (last + index + 1)).findIdx? (· == value) = some place →
    c.next + place < UInt64.size
  windowWords : ∀ offset, c.candidate? last = some offset →
    offset + 1 < UInt64.size ∧ offset + c.pattern.length < UInt64.size
  endWord : last + 1 < UInt64.size

theorem inBounds_of_fits {c : Cursor} {last : Nat} (fits : last + c.pattern.length = c.bytes.size)
    (small : c.bytes.size < 2 ^ 63) (before : c.next ≤ last) : c.InBounds last := by
  have word : UInt64.size = 2 ^ 64 := rfl
  have inside (index : Nat) (value : UInt8) (anchored : c.pattern.anchor? = some (index, value)) :
      index < c.pattern.length :=
    (List.getElem?_eq_some_iff.mp (Pattern.anchor?_getElem? anchored)).1
  constructor
  case region =>
    intro index value anchored
    have := inside index value anchored
    omega
  case window =>
    intro offset candidate
    have := candidate?_le before candidate
    omega
  case regionWords =>
    intro index value anchored
    have := inside index value anchored
    omega
  case candidateWord =>
    intro index value place anchored found
    have := (Array.findIdx?_eq_some_iff_getElem.mp found).1
    rw [Array.size_extract] at this
    omega
  case windowWords =>
    intro offset candidate
    have := candidate?_le before candidate
    omega
  case endWord => omega

namespace InBounds

variable {c : Cursor} {last : Nat}

theorem region_ok (bounds : c.InBounds last) {index : Nat} {value : UInt8}
    (anchored : c.pattern.anchor? = some (index, value)) :
    c.region index last = .ok (c.bytes.extract (c.next + index) (last + index + 1)) := by
  obtain ⟨ordered, inside⟩ := bounds.region index value anchored
  obtain ⟨first, stop⟩ := bounds.regionWords index value anchored
  rw [Cursor.region, addWord_of_lt first, ok_bind, addWord_of_lt (by omega), ok_bind,
    addWord_of_lt stop, ok_bind]
  exact slice_of_le (by omega) inside

theorem findIdx?_region (bounds : c.InBounds last) (before : c.next ≤ last) {index : Nat}
    {value : UInt8} (anchored : c.pattern.anchor? = some (index, value)) :
    (c.bytes.extract (c.next + index) (last + index + 1)).findIdx? (· == value) =
      (firstPosition? c.bytes value (c.next + index) (last + 1 - c.next)).map
        (· - (c.next + index)) := by
  have inside := (bounds.region index value anchored).2
  have stop : last + index + 1 = c.next + index + (last + 1 - c.next) := by omega
  rw [stop, findIdx?_extract (by omega)]

theorem checkedCandidate?_ok (bounds : c.InBounds last) (before : c.next ≤ last) :
    c.checkedCandidate? last = .ok (c.candidate? last) := by
  cases anchored : c.pattern.anchor? with
  | none => rw [checkedCandidate?, candidate?, anchored]; rfl
  | some anchor =>
    obtain ⟨index, value⟩ := anchor
    have word := bounds.candidateWord index value
    have searched := bounds.findIdx?_region before anchored
    simp only [checkedCandidate?, candidate?, anchored]
    rw [bounds.region_ok anchored, ok_bind, searched]
    cases search : firstPosition? c.bytes value (c.next + index) (last + 1 - c.next) with
    | none => rfl
    | some position =>
      have above := (firstPosition?_le search).1
      rw [search] at searched
      have offset : c.next + (position - (c.next + index)) = position - index := by omega
      simp only [Option.map_some]
      rw [addWord_of_lt (word _ anchored searched), offset]
      rfl

theorem checkedAccepts_ok (bounds : c.InBounds last) {offset : Nat}
    (candidate : c.candidate? last = some offset) :
    c.checkedAccepts offset = .ok (c.pattern.acceptsAt c.bytes offset) := by
  have inside := bounds.window offset candidate
  rw [checkedAccepts, addWord_of_lt (bounds.windowWords offset candidate).2, ok_bind,
    slice_of_le (Nat.le_add_right _ _) inside, ok_bind, all_zip_extract inside]
  rfl

end InBounds

def turn (c : Cursor) (last : Nat) : Turn :=
  match c.candidate? last with
  | none => .exhausted { c with next := last + 1 }
  | some offset =>
    if c.pattern.acceptsAt c.bytes offset then .found offset { c with next := offset + 1 }
    else .refused { c with next := offset + 1 }

theorem InBounds.checkedTurn_ok {c : Cursor} {last : Nat} (bounds : c.InBounds last)
    (before : c.next ≤ last) : c.checkedTurn last = .ok (c.turn last) := by
  rw [checkedTurn, bounds.checkedCandidate?_ok before, ok_bind, turn]
  cases candidate : c.candidate? last with
  | none =>
    simp only
    rw [addWord_of_lt bounds.endWord]
    rfl
  | some offset =>
    simp only
    rw [addWord_of_lt (bounds.windowWords offset candidate).1, ok_bind,
      bounds.checkedAccepts_ok candidate]
    rfl

/-- Every turn moves the cursor, at most one past the last offset, and changes nothing else. -/
theorem turn_moves {c : Cursor} {last : Nat} (before : c.next ≤ last) :
    ∃ further, c.next < further ∧ further ≤ last + 1 ∧
      (c.turn last).cursor = { c with next := further } := by
  rw [turn]
  cases candidate : c.candidate? last with
  | none => exact ⟨last + 1, by omega, Nat.le_refl _, rfl⟩
  | some offset =>
    have bounds := candidate?_le before candidate
    refine ⟨offset + 1, by omega, by omega, ?_⟩
    simp only
    split <;> rfl

theorem seek_turn {c : Cursor} {last : Nat} (before : c.next ≤ last) :
    c.seek last =
      match c.turn last with
      | .exhausted stopped => (none, stopped)
      | .found offset moved => (some offset, moved)
      | .refused moved => moved.seek last := by
  rw [seek, dif_pos before, turn]
  split
  · rename_i candidate
    rw [candidate]
  · rename_i offset candidate
    rw [candidate]
    simp only
    split <;> rfl

theorem eq_turn_of_checkedTurn {c : Cursor} {last : Nat} {turn : Turn}
    (fits : last + c.pattern.length = c.bytes.size) (small : c.bytes.size < 2 ^ 63)
    (before : c.next ≤ last) (turned : c.checkedTurn last = .ok turn) : turn = c.turn last := by
  rw [(inBounds_of_fits fits small before).checkedTurn_ok before] at turned
  exact (Except.ok.inj turned).symm

theorem checkedSeek_ok {c : Cursor} {last : Nat} (fits : last + c.pattern.length = c.bytes.size)
    (small : c.bytes.size < 2 ^ 63) : c.checkedSeek last = .ok (c.seek last) := by
  fun_induction checkedSeek c last with
  | case1 c before fault turned =>
    rw [(inBounds_of_fits fits small before).checkedTurn_ok before] at turned
    cases turned
  | case2 c before stopped turned =>
    rw [seek_turn before, ← eq_turn_of_checkedTurn fits small before turned]
  | case3 c before offset moved turned =>
    rw [seek_turn before, ← eq_turn_of_checkedTurn fits small before turned]
  | case4 c before moved turned ih =>
    have went := eq_turn_of_checkedTurn fits small before turned
    obtain ⟨further, -, -, same⟩ := turn_moves before
    rw [← went] at same
    obtain rfl : moved = { c with next := further } := same
    rw [seek_turn before, ← went]
    exact ih fits small
  | case5 c past => rw [seek, dif_neg past]

theorem checkedAdvance_ok {c : Cursor} (small : c.bytes.size < 2 ^ 63) :
    c.checkedAdvance = .ok c.advance := by
  unfold checkedAdvance advance
  cases fit : c.last? with
  | none => rfl
  | some last => exact checkedSeek_ok (last?_eq_some_iff.mp fit) small

theorem seek_moves {c : Cursor} {last : Nat} (within : c.next ≤ last + 1) :
    ∃ further, further ≤ last + 1 ∧ (c.seek last).2 = { c with next := further } := by
  fun_induction seek c last with
  | case1 c before exhausted => exact ⟨last + 1, Nat.le_refl _, rfl⟩
  | case2 c before offset candidate accepted =>
    exact ⟨offset + 1, Nat.succ_le_succ (candidate?_le before candidate).2, rfl⟩
  | case3 c before offset candidate refused ih =>
    exact ih (Nat.succ_le_succ (candidate?_le before candidate).2)
  | case4 c past => exact ⟨c.next, within, rfl⟩

structure Walks (bytes : Array UInt8) (pattern : Pattern) (c : Cursor) : Prop where
  bytes : c.bytes = bytes
  pattern : c.pattern = pattern
  within : ∀ last, c.last? = some last → c.next ≤ last + 1

namespace Walks

variable {bytes : Array UInt8} {pattern : Pattern} {c : Cursor}

theorem start (bytes : Array UInt8) (pattern : Pattern) :
    Walks bytes pattern (Cursor.start bytes pattern) :=
  ⟨rfl, rfl, fun _ _ => Nat.zero_le _⟩

theorem move (walks : Walks bytes pattern c) {last further : Nat} (fit : c.last? = some last)
    (bound : further ≤ last + 1) : Walks bytes pattern { c with next := further } := by
  refine ⟨walks.bytes, walks.pattern, ?_⟩
  intro other same
  obtain rfl : last = other := Option.some.inj (fit.symm.trans same)
  exact bound

theorem advance (walks : Walks bytes pattern c) : Walks bytes pattern c.advance.2 := by
  unfold Cursor.advance
  split
  · exact walks
  · rename_i last fit
    obtain ⟨further, bound, moved⟩ := seek_moves (walks.within last fit)
    rw [moved]
    exact walks.move fit bound

theorem skip (walks : Walks bytes pattern c) (n : Nat) : Walks bytes pattern (c.skip n).2 := by
  induction n generalizing c with
  | zero => exact walks.advance
  | succ n ih =>
    have next := walks.advance
    unfold Cursor.skip
    split
    · rename_i stopped found
      rw [found] at next
      exact next
    · rename_i offset moved found
      rw [found] at next
      exact ih next

theorem after (walks : Walks bytes pattern c) (past : List Query) :
    Walks bytes pattern (c.after past) := by
  induction past generalizing c with
  | nil => exact walks
  | cons query past ih =>
    apply ih
    cases query with
    | next => exact walks.advance
    | skip n => exact walks.skip n
    | rest | count => exact walks

end Walks

/-- So many turns that go on lead from `c` to `d`. -/
inductive Turned (last : Nat) : (turns : Nat) → (c d : Cursor) → Prop
  | here (c : Cursor) : Turned last 0 c c
  | again {turns : Nat} {c moved d : Cursor} (before : c.next ≤ last)
      (turned : c.checkedTurn last = .ok (.refused moved)) (rest : Turned last turns moved d) :
      Turned last (turns + 1) c d

theorem Turned.walks {bytes : Array UInt8} {pattern : Pattern} {last turns : Nat} {c d : Cursor}
    (path : Turned last turns c d) (walks : Walks bytes pattern c) (fit : c.last? = some last)
    (small : bytes.size < 2 ^ 63) :
    Walks bytes pattern d ∧ d.last? = some last ∧ c.next + turns ≤ d.next := by
  induction path with
  | here c => exact ⟨walks, fit, Nat.le_refl _⟩
  | @again turns c moved d before turned rest ih =>
    have went := eq_turn_of_checkedTurn (last?_eq_some_iff.mp fit) (by rw [walks.bytes]; exact small)
      before turned
    obtain ⟨further, ahead, bound, same⟩ := turn_moves before
    rw [← went] at same
    obtain rfl : moved = { c with next := further } := same
    obtain ⟨arrived, fits, far⟩ := ih (walks.move fit bound) fit
    refine ⟨arrived, fits, ?_⟩
    simp only at far
    omega

/-- The search in words of 64 bits gives what the search gives, at every point of a history: no sum
    outgrows a word and no slice reaches out of the bytes, in any turn that a step makes. The
    cursor stays within one past the last offset, and each turn moves it on, so that a step has no
    more turns than offsets are left. A pattern that does not fit is never laid, whatever its length. -/
theorem search_stays_in_bounds (bytes : Array UInt8) (pattern : Pattern)
    (small : bytes.size < 2 ^ 63) (past : List Query) :
    let c := (start bytes pattern).after past
    c.checkedAdvance = .ok c.advance ∧
      ∀ last, c.last? = some last → c.next ≤ last + 1 ∧
        ∀ turns d, Turned last turns c d →
          d.bytes = bytes ∧ d.pattern = pattern ∧ c.next + turns ≤ d.next ∧ d.next ≤ last + 1 ∧
          (d.next ≤ last → d.InBounds last ∧
            ∃ turn, d.checkedTurn last = .ok turn ∧ d.next < turn.cursor.next ∧
              turn.cursor.next ≤ last + 1) := by
  intro c
  have walks : Walks bytes pattern c := (Walks.start bytes pattern).after past
  refine ⟨checkedAdvance_ok (by rw [walks.bytes]; exact small), ?_⟩
  intro last fit
  refine ⟨walks.within last fit, ?_⟩
  intro turns d path
  obtain ⟨arrived, fits, far⟩ := path.walks walks fit small
  refine ⟨arrived.bytes, arrived.pattern, far, arrived.within last fits, ?_⟩
  intro before
  have bounds := inBounds_of_fits (last?_eq_some_iff.mp fits) (by rw [arrived.bytes]; exact small) before
  obtain ⟨further, ahead, bound, moved⟩ := turn_moves before
  refine ⟨bounds, d.turn last, bounds.checkedTurn_ok before, ?_⟩
  rw [moved]
  exact ⟨ahead, bound⟩

theorem search_past_refused_candidate_stays_in_bounds :
    let first := start #[0x55, 0x01, 0x55, 0x8B] [.exact 0x55, .exact 0x8B]
    let d : Cursor := { first with next := 1 }
    first.bytes.size < 2 ^ 63 ∧ first.last? = some 2 ∧ Turned 2 1 first d ∧
      first.checkedAdvance = .ok (some 2, { first with next := 3 }) ∧ d.InBounds 2 ∧
      d.checkedTurn 2 = .ok (.found 2 { first with next := 3 }) := by
  intro first d
  have small : first.bytes.size < 2 ^ 63 := by decide
  have fit : first.last? = some 2 := by decide
  have refused : first.checkedTurn 2 = .ok (.refused d) := by decide +kernel
  have path : Turned 2 1 first d := .again (by decide) refused (.here d)
  have advanced : first.advance = (some 2, { first with next := 3 }) := by decide +kernel
  obtain ⟨checked, within⟩ := search_stays_in_bounds first.bytes first.pattern small []
  obtain ⟨-, -, -, -, bounded⟩ := (within 2 fit).2 1 d path
  refine ⟨small, fit, path, checked.trans (congrArg Except.ok advanced), ?_, by decide +kernel⟩
  exact (bounded (by decide)).1

end Cursor

end SigScan
