import SigScan.Proofs.Fate
import SigScan.Proofs.WildcardByte

namespace SigScan

namespace Hex

theorem sign_lower : ∀ n : Fin 16, (Digit.mk n false).sign = Nat.digitChar n := by
  decide

theorem exists_ofByte (byte : UInt8) : ∃ high low : Digit, ofByte byte = [high.sign, low.sign] ∧
    16 * high.value.val + low.value.val = byte.toNat := by
  have small : byte.toNat < 256 := byte.toNat_lt
  have high_small : byte.toNat / 16 < 16 := by omega
  have low_small : byte.toNat % 16 < 16 := by omega
  refine ⟨⟨⟨_, high_small⟩, false⟩, ⟨⟨_, low_small⟩, false⟩, ?_, ?_⟩
  · rw [sign_lower, sign_lower]
    rfl
  · change 16 * (byte.toNat / 16) + byte.toNat % 16 = byte.toNat
    omega

end Hex

namespace Signature

def searchTokens (search : String) : List (List Char) :=
  if search = "" then [] else search.toList.splitOn ' '

def signatureToken (token : List Char) : List Char :=
  if token = ['.', '.'] then ['*'] else '\\' :: 'x' :: token

def ofSearch (search : String) : String :=
  String.ofList ((searchTokens search).flatMap signatureToken)

theorem searchToken_cases (descriptor : Descriptor) :
    descriptor.searchToken = ['.', '.'] ∨
      ∃ high low : Hex.Digit, descriptor.searchToken = [high.sign, low.sign] := by
  cases descriptor with
  | wildcard => exact .inl rfl
  | exact value =>
    obtain ⟨high, low, written, -⟩ := Hex.exists_ofByte value
    exact .inr ⟨high, low, written⟩

theorem not_mem_searchToken {c : Char} (undigit : Hex.digit? c = none) (dotless : c ≠ '.')
    (descriptor : Descriptor) : c ∉ descriptor.searchToken := by
  rcases searchToken_cases descriptor with written | ⟨high, low, written⟩
  · simp [written, dotless]
  · have high_sign : high.sign ≠ c := high.sign_ne undigit
    have low_sign : low.sign ≠ c := low.sign_ne undigit
    simp [written, high_sign.symm, low_sign.symm]

theorem searchToken_ne_nil (descriptor : Descriptor) : descriptor.searchToken ≠ [] := by
  rcases searchToken_cases descriptor with written | ⟨high, low, written⟩ <;> simp [written]

theorem searchTokens_searchString (pattern : Pattern) :
    searchTokens pattern.searchString = pattern.map Descriptor.searchToken := by
  cases pattern with
  | nil => rfl
  | cons descriptor rest =>
    have apart : ∀ token ∈ (descriptor :: rest).map Descriptor.searchToken, ' ' ∉ token := by
      intro token member
      obtain ⟨d, -, rfl⟩ := List.mem_map.mp member
      exact not_mem_searchToken rfl (by decide) d
    have split := List.splitOn_intercalate ' ' apart (by simp)
    rw [searchTokens, if_neg, Pattern.searchString, String.toList_ofList, split]
    intro empty
    rw [Pattern.searchString, String.ofList_eq_empty_iff] at empty
    rw [empty] at split
    have first : descriptor.searchToken = [] := (List.cons.inj split).1.symm
    exact searchToken_ne_nil descriptor first

theorem signatureToken_exact (value : UInt8) :
    ∃ high low : Hex.Digit, 16 * high.value.val + low.value.val = value.toNat ∧
      signatureToken (Descriptor.exact value).searchToken = ['\\', 'x', high.sign, low.sign] := by
  obtain ⟨high, low, written, sum⟩ := Hex.exists_ofByte value
  have sign : high.sign ≠ '.' := high.sign_ne rfl
  refine ⟨high, low, sum, ?_⟩
  rw [Descriptor.searchToken, written, signatureToken, if_neg]
  simp [sign]

theorem Piece.pairMeaning_of_exact {high low : Hex.Digit} {value : UInt8}
    (sum : 16 * high.value.val + low.value.val = value.toNat) (other : value ≠ wildcardByte) :
    Piece.pairMeaning high low = .exact value := by
  have unsigned : value.toNat ≠ 0x2A := fun same => other (UInt8.toNat_inj.mp same)
  simp [pairMeaning, sum, unsigned]

theorem exists_writing {pattern : Pattern} (lax : .exact wildcardByte ∉ pattern) :
    ∃ w : Writing, w.first.digits = none ∧
      w.text = (pattern.map Descriptor.searchToken).flatMap signatureToken ∧ w.meaning = pattern := by
  induction pattern with
  | nil => exact ⟨⟨⟨none, 0⟩, []⟩, rfl, rfl, rfl⟩
  | cons descriptor rest ih =>
    obtain ⟨here, later⟩ := not_or.mp (List.mem_cons.not.mp lax)
    obtain ⟨⟨⟨digits, signs⟩, others⟩, bare, text, meaning⟩ := ih later
    change digits = none at bare
    subst bare
    rw [List.map_cons, List.flatMap_cons, ← text]
    cases descriptor with
    | wildcard =>
      refine ⟨⟨⟨none, signs + 1⟩, others⟩, rfl, rfl, ?_⟩
      exact congrArg (Descriptor.wildcard :: ·) meaning
    | exact value =>
      obtain ⟨high, low, sum, token⟩ := signatureToken_exact value
      have other : value ≠ wildcardByte := fun same => here (congrArg Descriptor.exact same.symm)
      refine ⟨⟨⟨none, 0⟩, ⟨some (high, low), signs⟩ :: others⟩, rfl, ?_, ?_⟩
      · rw [token]
        rfl
      · rw [← Piece.pairMeaning_of_exact sum other]
        exact congrArg (Piece.pairMeaning high low :: ·) meaning

theorem compile_writing {text : String} {w : Writing} (written : w.text = text.toList) :
    compile text = .ok w.meaning := by
  rw [compile_eq_readPieces, ← written, pieces_text]
  exact readPieces_eq_ok_iff.mpr ⟨w.first :: w.others, rfl, rfl⟩

/-- A search string can be read back just if its pattern demands no byte of the wildcard sign. -/
theorem compile_ofSearch_iff {pattern : Pattern} :
    compile (ofSearch pattern.searchString) = .ok pattern ↔ .exact wildcardByte ∉ pattern := by
  constructor
  · exact exact_not_mem_of_compile
  · intro lax
    obtain ⟨w, -, text, meaning⟩ := exists_writing lax
    have written : w.text = (ofSearch pattern.searchString).toList := by
      rw [ofSearch, String.toList_ofList, searchTokens_searchString, text]
    rw [compile_writing written, meaning]

theorem searchString_inj {pattern pattern' : Pattern} (lax : .exact wildcardByte ∉ pattern)
    (lax' : .exact wildcardByte ∉ pattern') (same : pattern.searchString = pattern'.searchString) :
    pattern = pattern' := by
  have back := compile_ofSearch_iff.mpr lax
  rw [same, compile_ofSearch_iff.mpr lax'] at back
  exact (Except.ok.inj back).symm

end Signature

theorem Scan.locate_search {s : Scan} {name : String} {pattern : Pattern} {search : String}
    (printed : (s.locate name pattern).search = some search) : search = pattern.searchString := by
  unfold locate at printed
  split at printed
  · cases printed
  · exact (Option.some.inj printed).symm

open Signature

/-- The search string of a pattern has a token for each descriptor, and written as a signature again
    it compiles to that pattern, if no descriptor demands the byte of the wildcard sign. None
    does that was compiled, so signatures with one search string have one pattern, and what a run
    prints for a signature that it misses tells the pattern that it searched for. -/
theorem search_string_tells_signature :
    (∀ pattern : Pattern, (searchTokens pattern.searchString).length = pattern.length ∧
      (∀ token ∈ searchTokens pattern.searchString,
        token = ['.', '.'] ∨ ∃ high low : Hex.Digit, token = [high.sign, low.sign]) ∧
      (compile (ofSearch pattern.searchString) = .ok pattern ↔ .exact wildcardByte ∉ pattern)) ∧
    (∀ text pattern, compile text = .ok pattern →
      compile (ofSearch pattern.searchString) = .ok pattern) ∧
    Set.InjOn Pattern.searchString {pattern | ∃ text, compile text = .ok pattern} ∧
    ∀ (s : Scan) (entries : List Entry), ∀ f ∈ (s.run entries).seen,
      ∀ search, f.search = some search →
        ∃ e raw pattern, (e, raw) ∈ s.options.applicable entries ∧ compile raw = .ok pattern ∧
          s.locate e.name pattern = f ∧ compile (ofSearch search) = .ok pattern := by
  refine ⟨?_, ?_, ?_, ?_⟩
  · intro pattern
    refine ⟨by rw [searchTokens_searchString, List.length_map], ?_, compile_ofSearch_iff⟩
    rw [searchTokens_searchString, List.forall_mem_map]
    exact fun descriptor _ => searchToken_cases descriptor
  · intro text pattern compiled
    exact compile_ofSearch_iff.mpr (exact_not_mem_of_compile compiled)
  · intro pattern compiled pattern' compiled' same
    obtain ⟨text, compiled⟩ := compiled
    obtain ⟨text', compiled'⟩ := compiled'
    exact searchString_inj (exact_not_mem_of_compile compiled) (exact_not_mem_of_compile compiled') same
  · intro s entries f seen search printed
    obtain ⟨e, raw, applies, pattern, compiled, rfl⟩ := Scan.gives_of_seen seen
    have written := Scan.locate_search printed
    subst written
    exact ⟨e, raw, pattern, applies, compiled, rfl,
      compile_ofSearch_iff.mpr (exact_not_mem_of_compile compiled)⟩

theorem search_string_tells_missed_signature :
    let text := "55\\x2a*\\xEC\\x\\x0F"
    let pattern : Pattern := [.exact 0x55, .wildcard, .wildcard, .exact 0xEC, .exact 0x0F]
    let s : Scan := ⟨#[0x55, 0x8B, 0x2A, 0xEC], {}⟩
    let e : Entry := ⟨"Spawn", "tf", "server", some text, none⟩
    let search := "55 .. .. ec 0f"
    compile text = .ok pattern ∧ pattern.searchString = search ∧
      ofSearch search = "\\x55**\\xec\\x0f" ∧
      compile (ofSearch pattern.searchString) = .ok pattern ∧
      .miss "Spawn" search ∈ (s.run [e]).seen ∧
        ∃ e' raw pattern', (e', raw) ∈ s.options.applicable [e] ∧ compile raw = .ok pattern' ∧
          s.locate e'.name pattern' = .miss "Spawn" search ∧
          compile (ofSearch search) = .ok pattern' := by
  intro text pattern s e search
  have compiled : compile text = .ok pattern := by decide +kernel
  have printed : pattern.searchString = search := by decide +kernel
  have written : ofSearch search = "\\x55**\\xec\\x0f" := by decide +kernel
  have seen : .miss "Spawn" search ∈ (s.run [e]).seen := by decide +kernel
  obtain ⟨-, back, -, told⟩ := search_string_tells_signature
  exact ⟨compiled, printed, written, back text pattern compiled, seen,
    told s [e] _ seen search rfl⟩

end SigScan
