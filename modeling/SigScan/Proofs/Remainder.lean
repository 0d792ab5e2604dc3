import SigScan.Proofs.StrippedReading

namespace SigScan.KeyValues

/-- What reading stops at lies in the text: the rest behind a document, or the place of a complaint. -/
def StopsIn (text : List Char) : Except Complaint (Document × List Char) → Prop
  | .ok (_, rest) => rest <:+ text
  | .error c => c.left <:+ text

structure Token.In (t : Token) (text : List Char) : Prop where
  start : t.start <:+ text
  rest : t.rest <:+ text

theorem Token.In.extend {t : Token} {text whole : List Char} (inside : t.In text)
    (part : text <:+ whole) : t.In whole :=
  ⟨inside.start.trans part, inside.rest.trans part⟩

theorem dropGap_suffix (comment : Bool) (text : List Char) : dropGap comment text <:+ text := by
  fun_induction dropGap comment text with
  | case1 | case5 => exact List.suffix_rfl
  | case2 _ _ ih => exact ih.trans (List.suffix_cons _ _)
  | case3 _ ih => exact ih.trans ((List.suffix_cons _ _).trans (List.suffix_cons _ _))
  | case4 _ _ _ _ ih => exact ih.trans (List.suffix_cons _ _)

theorem token?_in {text : List Char} {t : Token} (found : token? text = some t) : t.In text := by
  unfold token? at found
  split at found
  · cases found
  · cases found
    exact ⟨List.suffix_rfl, List.suffix_cons _ _⟩
  · cases found
    exact ⟨List.suffix_rfl, List.suffix_cons _ _⟩
  · rename_i quoted
    split at found
    · cases found
      exact ⟨List.suffix_rfl, List.nil_suffix⟩
    · rename_i quote rest behind
      cases found
      have closing : quote :: rest <:+ quoted := behind ▸ List.dropWhile_suffix _
      exact ⟨List.suffix_rfl, (List.suffix_cons _ _).trans (closing.trans (List.suffix_cons _ _))⟩
  · cases found
    exact ⟨List.suffix_rfl, (List.dropWhile_suffix _).trans (List.suffix_cons _ _)⟩

theorem tokens_in (text : List Char) : ∀ t ∈ tokens text, t.In text := by
  fun_induction tokens text with
  | case1 => simp
  | case2 text t found ih =>
    have here := (token?_in found).extend (dropGap_suffix false text)
    intro later member
    rcases List.mem_cons.mp member with rfl | member
    · exact here
    · exact (ih later member).extend here.rest

section Read

variable {text : List Char}

theorem leftAt_suffix {tokens : List Token} (inside : ∀ t ∈ tokens, t.In text) :
    leftAt tokens <:+ text := by
  cases tokens with
  | nil => exact List.nil_suffix
  | cons t tokens => exact (inside t List.mem_cons_self).start

theorem readObject_stopsIn {key : String} {entries : List (String × Node)} {around : List Enclosing}
    {tokens : List Token} (inside : ∀ t ∈ tokens, t.In text) :
    StopsIn text (readObject key entries around tokens) := by
  fun_induction readObject key entries around tokens with
  | case1 => exact (inside _ List.mem_cons_self).rest
  | case2 key entries start rest tokens node outer around ih =>
    exact ih fun t member => inside t (List.mem_cons_of_mem _ member)
  | case3 | case4 =>
    rename_i ih
    exact ih fun t member => inside t (List.mem_cons_of_mem _ (List.mem_cons_of_mem _ member))
  | case5 => exact leftAt_suffix fun t member => inside t (List.mem_cons_of_mem _ member)
  | case6 => exact leftAt_suffix inside

theorem readPair_stopsIn {tokens : List Token} (inside : ∀ t ∈ tokens, t.In text) :
    StopsIn text (readPair tokens) := by
  unfold readPair
  split
  · exact (inside _ (List.mem_cons_of_mem _ List.mem_cons_self)).rest
  · exact readObject_stopsIn fun t member =>
      inside t (List.mem_cons_of_mem _ (List.mem_cons_of_mem _ member))
  · exact leftAt_suffix fun t member => inside t (List.mem_cons_of_mem _ member)
  · exact leftAt_suffix inside

end Read

theorem baseArgument?_in {text : List Char} {t : Token} (found : baseArgument? text = some t) :
    t.In text := by
  unfold baseArgument? at found
  split at found
  · rename_i read
    cases found
    exact token?_in read
  · cases found

theorem dropBases_stopsIn (text : List Char) :
    (dropBases text).1 <:+ text ∧ ∀ stray ∈ (dropBases text).2, stray.left <:+ text := by
  fun_induction dropBases text with
  | case1 after argument found ih =>
    have base : after <:+ '#' :: 'b' :: 'a' :: 's' :: 'e' :: after := ⟨['#', 'b', 'a', 's', 'e'], rfl⟩
    have behind := (dropGap_suffix false argument.rest).trans
      ((baseArgument?_in found).rest.trans ((dropGap_suffix false after).trans base))
    exact ⟨ih.1.trans behind, fun stray member => (ih.2 stray member).trans behind⟩
  | case2 after missing =>
    have base : after <:+ '#' :: 'b' :: 'a' :: 's' :: 'e' :: after := ⟨['#', 'b', 'a', 's', 'e'], rfl⟩
    refine ⟨List.suffix_rfl, ?_⟩
    intro stray member
    cases member
    exact (dropGap_suffix false after).trans base
  | case3 =>
    refine ⟨List.suffix_rfl, ?_⟩
    intro stray member
    cases member

theorem dropEnd_suffix (text : List Char) : dropEnd text <:+ text := by
  have gap := dropGap_suffix false text
  unfold dropEnd
  split
  · rename_i rest ended
    rw [ended] at gap
    exact (dropGap_suffix false rest).trans ((List.suffix_cons _ _).trans gap)
  · exact gap

theorem Complaint.further_left (a b : Complaint) :
    (a.further b).left = a.left ∨ (a.further b).left = b.left := by
  unfold further
  split
  · exact .inl rfl
  · split
    · exact .inr rfl
    · exact .inl rfl

theorem Document.read_error_left {text : List Char} {c : Complaint}
    (failed : Document.read text = .error c) : c.left <:+ text := by
  obtain ⟨body, strays⟩ := dropBases_stopsIn (dropGap false text)
  have front := dropGap_suffix false text
  have read := readPair_stopsIn fun t member =>
    (tokens_in _ t member).extend (body.trans front)
  have told {own : Complaint} (inside : own.left <:+ text)
      (named : (dropBases (dropGap false text)).2.elim own own.further = c) : c.left <:+ text := by
    cases stray : (dropBases (dropGap false text)).2 with
    | none =>
      rw [stray] at named
      exact named ▸ inside
    | some other =>
      rw [stray] at named
      have stands := (strays other stray).trans front
      rw [← named]
      rcases own.further_left other with left | left
      · exact left ▸ inside
      · exact left ▸ stands
  unfold Document.read at failed
  cases pair : readPair (tokens (dropBases (dropGap false text)).1) with
  | error own =>
    simp only [pair, Except.error.injEq] at failed
    rw [pair] at read
    exact told read failed
  | ok found =>
    obtain ⟨document, rest⟩ := found
    rw [pair] at read
    simp only [pair] at failed
    split at failed
    · cases failed
    · rename_i left
      refine told ?_ (Except.error.inj failed)
      exact (dropEnd_suffix rest).trans read

end SigScan.KeyValues
