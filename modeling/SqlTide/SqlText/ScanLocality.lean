import SqlTide.SqlText.CodeScans

/-!
# What a scan looks at

A scan that comes to an index has looked at what comes before it and at the two characters from it
on at most. In another text with the same characters, wherever they stand, it comes as far.
-/

namespace SqlTide.SqlText

open Foundations List

variable {sql sql' text text' : List Char} {index index' next fuel fuel' count count' length : ℕ}
  {character quote : Char}

/-- Two texts begin with the same characters, or they are the same and shorter. -/
def Agree (count : ℕ) (text text' : List Char) : Prop := text.take count = text'.take count

theorem Agree.mono (h : Agree count text text') (hle : count' ≤ count) :
    Agree count' text text' := by
  have hsame := congrArg (take count') h
  rwa [take_take, take_take, Nat.min_eq_left hle] at hsame

theorem Agree.drop (h : Agree (count' + count) (sql.drop index) (sql'.drop index')) :
    Agree count (sql.drop (index + count')) (sql'.drop (index' + count')) := by
  have hsame := congrArg (List.drop count') h
  rw [drop_take, drop_take, Nat.add_sub_cancel_left, drop_drop, drop_drop] at hsame
  exact hsame

/-- What agrees up to a place and beyond it agrees as far behind what is passed. -/
theorem Agree.behind {close : ℕ}
    (h : Agree (close - index + count) (sql.drop index) (sql'.drop index'))
    (hnext : index ≤ next) (hclose : next ≤ close) :
    Agree (close - next + count) (sql.drop next) (sql'.drop (index' + (next - index))) := by
  have hrest : Agree (next - index + (close - next + count)) (sql.drop index) (sql'.drop index') :=
    h.mono (by omega)
  have hdrop := hrest.drop
  rwa [Nat.add_sub_cancel' hnext] at hdrop

theorem Agree.symm (h : Agree count text text') : Agree count text' text := Eq.symm h

theorem Agree.tail (h : Agree (count + 1) (character :: text) text') :
    ∃ rest, text' = character :: rest ∧ Agree count text rest := by
  cases text' with
  | nil => simp [Agree] at h
  | cons character' rest =>
    rw [Agree, take_succ_cons, take_succ_cons] at h
    obtain ⟨rfl, hrest⟩ := List.cons.inj h
    exact ⟨rest, rfl, hrest⟩

theorem Agree.nil (h : Agree (count + 1) [] text') : text' = [] := by
  cases text' with
  | nil => rfl
  | cons character rest => simp [Agree] at h

theorem Agree.eq (h : Agree count text text') (hlt : text.length < count) : text = text' := by
  induction text generalizing text' count with
  | nil =>
    obtain ⟨count, rfl⟩ := Nat.exists_eq_add_of_lt hlt
    rw [length_nil, Nat.zero_add] at h
    exact h.nil.symm
  | cons character text ih =>
    rw [length_cons] at hlt
    obtain ⟨count, rfl⟩ := Nat.exists_eq_add_of_le' (by omega : 1 ≤ count)
    obtain ⟨rest, rfl, hrest⟩ := h.tail
    rw [ih hrest (by omega)]

theorem Agree.head? (h : Agree (count + 1) text text') : text.head? = text'.head? := by
  cases text with
  | nil => rw [h.nil]
  | cons character text =>
    obtain ⟨rest, rfl, -⟩ := h.tail
    rfl

theorem Agree.getElem? (h : Agree (count + 1) (sql.drop index) (sql'.drop index')) :
    sql[index]? = sql'[index']? := by
  rw [← head?_drop, ← head?_drop, h.head?]

theorem Agree.isLineCommentStart (h : Agree (count + 2) text text') :
    isLineCommentStart text = isLineCommentStart text' := by
  cases text with
  | nil => rw [h.nil]
  | cons first text =>
    obtain ⟨rest, rfl, hrest⟩ := h.tail
    cases text with
    | nil => rw [hrest.nil]
    | cons second text =>
      obtain ⟨rest, rfl, -⟩ := hrest.tail
      rfl

theorem Agree.isBlockCommentStart (h : Agree (count + 2) text text') :
    isBlockCommentStart text = isBlockCommentStart text' := by
  cases text with
  | nil => rw [h.nil]
  | cons first text =>
    obtain ⟨rest, rfl, hrest⟩ := h.tail
    cases text with
    | nil => rw [hrest.nil]
    | cons second text =>
      obtain ⟨rest, rfl, -⟩ := hrest.tail
      rfl

theorem findIdx?_local (hlength : text.findIdx? (· = '\n') = some length)
    (h : Agree (length + 1) text text') : text'.findIdx? (· = '\n') = some length := by
  induction text generalizing text' length with
  | nil => simp at hlength
  | cons character text ih =>
    obtain ⟨rest, rfl, hrest⟩ := h.tail
    rw [findIdx?_cons] at hlength ⊢
    split_ifs at hlength ⊢ with hbreak
    · exact hlength
    · obtain ⟨length, hfound, rfl⟩ := Option.map_eq_some_iff.mp hlength
      rw [ih hfound hrest]
      rfl

theorem blockLength_local (hlength : blockLength text = some length) (h : Agree length text text') :
    blockLength text' = some length := by
  fun_induction blockLength text generalizing text' length with
  | case1 => cases hlength
  | case2 => cases hlength
  | case3 character next rest hclosing =>
    obtain rfl := Option.some.inj hlength
    obtain ⟨rest', rfl, hrest⟩ := h.tail
    obtain ⟨rest', rfl, -⟩ := hrest.tail
    rw [blockLength, if_pos hclosing]
  | case4 character next rest hclosing ih =>
    obtain ⟨length, hfound, rfl⟩ := Option.map_eq_some_iff.mp hlength
    obtain ⟨rest', rfl, hrest⟩ := h.tail
    have hnext := ih hfound hrest
    obtain ⟨piece, _, -, rfl, hne, -⟩ := blockLength_eq_some asciiTables hfound
    obtain ⟨length, hlength⟩ := Nat.exists_eq_add_of_le' (length_pos_of_ne_nil hne)
    rw [hlength] at hrest
    obtain ⟨rest', rfl, -⟩ := hrest.tail
    rw [blockLength, if_neg hclosing, hnext]
    rfl

/-- The character behind the closing quote counts. -/
theorem quotedLength_local (hlength : quotedLength quote text = some length)
    (h : Agree (length + 1) text text') : quotedLength quote text' = some length := by
  fun_induction quotedLength quote text generalizing text' length with
  | case1 => cases hlength
  | case2 =>
    obtain rfl := Option.some.inj hlength
    obtain ⟨rest, rfl, hrest⟩ := h.tail
    rw [hrest.nil, quotedLength, if_pos rfl]
  | case3 => cases hlength
  | case4 next rest ih =>
    obtain ⟨length, hfound, rfl⟩ := Option.map_eq_some_iff.mp hlength
    obtain ⟨rest', rfl, hnext⟩ := h.tail
    obtain ⟨rest', rfl, hrest⟩ := hnext.tail
    rw [quotedLength, if_pos rfl, ih hfound hrest]
    rfl
  | case5 rest hescape ih =>
    obtain ⟨length, hfound, rfl⟩ := Option.map_eq_some_iff.mp hlength
    obtain ⟨rest', rfl, hnext⟩ := h.tail
    obtain ⟨rest', rfl, hrest⟩ := hnext.tail
    rw [quotedLength, if_neg hescape, if_pos rfl, if_pos rfl, ih hfound hrest]
    rfl
  | case6 next rest hescape hnext =>
    obtain rfl := Option.some.inj hlength
    obtain ⟨rest', rfl, hrest⟩ := h.tail
    obtain ⟨rest', rfl, -⟩ := hrest.tail
    rw [quotedLength, if_neg hescape, if_pos rfl, if_neg hnext]
  | case7 character next rest hescape hquote ih =>
    obtain ⟨length, hfound, rfl⟩ := Option.map_eq_some_iff.mp hlength
    obtain ⟨rest', rfl, hrest⟩ := h.tail
    have hnext := ih hfound hrest
    obtain ⟨rest', rfl, -⟩ := hrest.tail
    rw [quotedLength, if_neg hescape, if_neg hquote, hnext]
    rfl

/-- The character behind the comment counts, as there is none where no newline ends it. -/
theorem skipLineComment_local (hlt : index < sql.length)
    (h : Agree (skipLineComment sql index - index + 1) (sql.drop index) (sql'.drop index')) :
    skipLineComment sql' index' = index' + (skipLineComment sql index - index) := by
  unfold skipLineComment at h ⊢
  cases hfound : (sql.drop index).findIdx? (· = '\n') with
  | some offset =>
    rw [hfound] at h
    dsimp only at h ⊢
    rw [findIdx?_local hfound (h.mono (by omega))]
    dsimp only
    omega
  | none =>
    rw [hfound] at h
    have hsame : sql.drop index = sql'.drop index' :=
      Agree.eq h (by rw [length_drop]; dsimp only; omega)
    have hlength := congrArg List.length hsame
    rw [length_drop, length_drop] at hlength
    rw [← hsame, hfound]
    dsimp only
    omega

theorem skipBlockComment_local (hnext : skipBlockComment sql index = .ok next)
    (h : Agree (next - index) (sql.drop index) (sql'.drop index')) :
    skipBlockComment sql' index' = .ok (index' + (next - index)) := by
  unfold skipBlockComment at hnext ⊢
  cases hlength : blockLength (sql.drop (index + 2)) with
  | none =>
    rw [hlength] at hnext
    cases hnext
  | some length =>
    rw [hlength] at hnext
    obtain rfl := Except.ok.inj hnext
    have hrest : Agree (2 + length) (sql.drop index) (sql'.drop index') := h.mono (by omega)
    rw [blockLength_local hlength hrest.drop]
    dsimp only
    congr 1
    omega

theorem skipQuotedText_local (hnext : skipQuotedText sql index quote = .ok next)
    (h : Agree (next - index + 1) (sql.drop index) (sql'.drop index')) :
    skipQuotedText sql' index' quote = .ok (index' + (next - index)) := by
  unfold skipQuotedText at hnext ⊢
  cases hlength : quotedLength quote (sql.drop (index + 1)) with
  | none =>
    rw [hlength] at hnext
    cases hnext
  | some length =>
    rw [hlength] at hnext
    obtain rfl := Except.ok.inj hnext
    have hrest : Agree (1 + (length + 1)) (sql.drop index) (sql'.drop index') := h.mono (by omega)
    rw [quotedLength_local hlength hrest.drop]
    dsimp only
    congr 1
    omega

theorem lt_of_skipBlockComment (h : skipBlockComment sql index = .ok next) : index < next := by
  unfold skipBlockComment at h
  cases hlength : blockLength (sql.drop (index + 2)) with
  | none =>
    rw [hlength] at h
    cases h
  | some length =>
    rw [hlength] at h
    obtain rfl := Except.ok.inj h
    omega

theorem lt_skipLineComment (hlt : index < sql.length) : index < skipLineComment sql index := by
  unfold skipLineComment
  split <;> omega

theorem getElem?_of_drop_eq_cons (h : sql.drop index = character :: text) :
    sql[index]? = some character := by
  rw [← head?_drop, h]
  rfl

theorem getElem?_of_drop_eq (h : sql.drop index = sql'.drop index') :
    sql[index]? = sql'[index']? := by
  rw [← head?_drop, h, head?_drop]

theorem lt_length_of_drop_eq_cons (h : sql.drop index = character :: text) : index < sql.length :=
  (List.getElem?_eq_some_iff.mp (getElem?_of_drop_eq_cons h)).1

theorem le_of_skipTriviaLoop (h : skipTriviaLoop sql fuel index = .ok next) : index ≤ next := by
  induction fuel generalizing index with
  | zero =>
    obtain rfl := Except.ok.inj h
    exact le_rfl
  | succ fuel ih =>
    rw [skipTriviaLoop] at h
    cases hdrop : sql.drop index with
    | nil =>
      rw [hdrop] at h
      obtain rfl := Except.ok.inj h
      exact le_rfl
    | cons character rest =>
      have hlt := lt_length_of_drop_eq_cons hdrop
      rw [hdrop] at h
      dsimp only at h
      split_ifs at h with hspace hline hblock
      · exact (Nat.le_succ index).trans (ih h)
      · exact (lt_skipLineComment hlt).le.trans (ih h)
      · cases hskip : skipBlockComment sql index with
        | error error =>
          rw [hskip] at h
          cases h
        | ok after =>
          rw [hskip] at h
          exact (lt_of_skipBlockComment hskip).le.trans (ih h)
      · obtain rfl := Except.ok.inj h
        exact le_rfl

/-- What `skip_trivia` comes to depends on what it passes and the two characters behind. -/
theorem skipTriviaLoop_local (hnext : skipTriviaLoop sql fuel index = .ok next)
    (hfuel : sql.length - index ≤ fuel) (hfuel' : sql'.length - index' ≤ fuel')
    (h : Agree (next - index + 2) (sql.drop index) (sql'.drop index')) :
    skipTriviaLoop sql' fuel' index' = .ok (index' + (next - index)) := by
  induction fuel generalizing index index' fuel' with
  | zero =>
    obtain rfl := Except.ok.inj hnext
    have hnil : sql'.drop index' = [] := by
      rw [drop_eq_nil_of_le (by omega)] at h
      exact h.nil
    cases fuel' with
    | zero => rw [Nat.sub_self]; rfl
    | succ fuel' => rw [skipTriviaLoop, hnil, Nat.sub_self]; rfl
  | succ fuel ih =>
    have hle := le_of_skipTriviaLoop hnext
    rw [skipTriviaLoop] at hnext
    cases hdrop : sql.drop index with
    | nil =>
      rw [hdrop] at hnext h
      obtain rfl := Except.ok.inj hnext
      cases fuel' with
      | zero => rw [Nat.sub_self]; rfl
      | succ fuel' => rw [skipTriviaLoop, h.nil, Nat.sub_self]; rfl
    | cons character rest =>
      have hlt := lt_length_of_drop_eq_cons hdrop
      have hagree := h
      rw [hdrop] at hnext h
      obtain ⟨rest', hdrop', -⟩ := h.tail
      have hlt' := lt_length_of_drop_eq_cons hdrop'
      obtain ⟨fuel', rfl⟩ := Nat.exists_eq_add_of_le' (by omega : 1 ≤ fuel')
      rw [skipTriviaLoop]
      rw [hdrop'] at h ⊢
      dsimp only at hnext ⊢
      rw [← h.isLineCommentStart, ← h.isBlockCommentStart]
      -- what is left agrees behind what is passed here
      have hnexts : ∀ {after}, index < after → skipTriviaLoop sql fuel after = .ok next →
          skipTriviaLoop sql' fuel' (index' + (after - index)) = .ok (index' + (next - index)) := by
        intro after hafter hloop
        have hle' := le_of_skipTriviaLoop hloop
        have hrest := hagree.behind hafter.le hle'
        have hloop' :=
          ih hloop (by omega) (by omega : sql'.length - (index' + (after - index)) ≤ fuel')
          hrest
        rw [hloop']
        congr 1
        omega
      split_ifs at hnext ⊢ with hspace hline hblock
      · have hloop := hnexts (by omega : index < index + 1) hnext
        rwa [Nat.add_sub_cancel_left] at hloop
      · have hafter := lt_skipLineComment hlt
        have hle' := le_of_skipTriviaLoop hnext
        rw [skipLineComment_local hlt (hagree.mono (by omega))]
        exact hnexts hafter hnext
      · cases hskip : skipBlockComment sql index with
        | error error =>
          rw [hskip] at hnext
          cases hnext
        | ok after =>
          rw [hskip] at hnext
          have hafter := lt_of_skipBlockComment hskip
          have hle' := le_of_skipTriviaLoop hnext
          rw [skipBlockComment_local hskip (hagree.mono (by omega))]
          exact hnexts hafter hnext
      · obtain rfl := Except.ok.inj hnext
        rw [Nat.sub_self]
        rfl

theorem le_of_skipTrivia (h : skipTrivia sql index = .ok next) : index ≤ next :=
  le_of_skipTriviaLoop h

theorem skipTrivia_local (hnext : skipTrivia sql index = .ok next)
    (h : Agree (next - index + 2) (sql.drop index) (sql'.drop index')) :
    skipTrivia sql' index' = .ok (index' + (next - index)) :=
  skipTriviaLoop_local hnext le_rfl le_rfl h

theorem skipNonCode_local (hnext : skipNonCode sql index = .ok (some next))
    (h : Agree (next - index + 1) (sql.drop index) (sql'.drop index')) :
    skipNonCode sql' index' = .ok (some (index' + (next - index))) := by
  have hlt := lt_of_skipNonCode hnext
  unfold skipNonCode at hnext ⊢
  cases hdrop : sql.drop index with
  | nil =>
    rw [hdrop] at hnext
    cases hnext
  | cons character rest =>
    have hindex := lt_length_of_drop_eq_cons hdrop
    have hagree := h
    obtain ⟨count, hcount⟩ := Nat.exists_eq_add_of_le' (by omega : 2 ≤ next - index + 1)
    rw [hcount, hdrop] at h
    rw [hdrop] at hnext
    obtain ⟨rest', hdrop', -⟩ := h.tail
    rw [hdrop'] at h ⊢
    dsimp only at hnext ⊢
    rw [← h.isLineCommentStart, ← h.isBlockCommentStart]
    split_ifs at hnext ⊢ with hline hblock hquote
    · obtain rfl := Option.some.inj (Except.ok.inj hnext)
      rw [skipLineComment_local hindex hagree]
    · obtain ⟨_, hskip, hsome⟩ := map_eq_ok.mp hnext
      obtain rfl := Option.some.inj hsome
      rw [skipBlockComment_local hskip (hagree.mono (by omega))]
      rfl
    · obtain ⟨_, hskip, hsome⟩ := map_eq_ok.mp hnext
      obtain rfl := Option.some.inj hsome
      rw [skipQuotedText_local hskip hagree]
      rfl
    · simp at hnext

theorem skipNonCode_none_local (hnone : skipNonCode sql index = .ok none)
    (h : Agree 2 (sql.drop index) (sql'.drop index')) : skipNonCode sql' index' = .ok none := by
  unfold skipNonCode at hnone ⊢
  cases hdrop : sql.drop index with
  | nil =>
    rw [hdrop] at h
    rw [h.nil]
  | cons character rest =>
    rw [hdrop] at h hnone
    obtain ⟨rest', hdrop', -⟩ := h.tail
    rw [hdrop'] at h ⊢
    dsimp only at hnone ⊢
    rw [← h.isLineCommentStart, ← h.isBlockCommentStart]
    split_ifs at hnone ⊢ with hline hblock hquote
    · cases hnone
    · obtain ⟨_, -, hsome⟩ := map_eq_ok.mp hnone
      cases hsome
    · obtain ⟨_, -, hsome⟩ := map_eq_ok.mp hnone
      cases hsome
    · rfl

/-- What `find_matching_parenthesis` does with a character of code. -/
def visitParenthesis (index : ℕ) (character : Char) (depth : ℕ) : ScanResult (Visit ℕ ℕ) :=
  if character = '(' then .ok (.goOn (index + 1) (depth + 1))
  else if character = ')' then
    if depth - 1 = 0 then .ok (.done index) else .ok (.goOn (index + 1) (depth - 1))
  else .ok (.goOn (index + 1) depth)

/-- A character of code goes on by one, or it is the parenthesis. -/
theorem visitParenthesis_cases (character : Char) (depth : ℕ) :
    (∃ depth', ∀ index, visitParenthesis index character depth = .ok (.goOn (index + 1) depth')) ∨
      (character = ')' ∧ ∀ index, visitParenthesis index character depth = .ok (.done index)) := by
  unfold visitParenthesis
  split_ifs with hopen hclose hdepth
  · exact Or.inl ⟨_, fun _ => rfl⟩
  · exact Or.inr ⟨hclose, fun _ => rfl⟩
  · exact Or.inl ⟨_, fun _ => rfl⟩
  · exact Or.inl ⟨_, fun _ => rfl⟩

section
variable {atEnd atEnd' : ℕ → ScanResult ℕ} {depth close : ℕ}

section

variable (hend : ∀ depth result, atEnd depth ≠ .ok result)
  (hclose : scanCode sql sql.length visitParenthesis atEnd fuel index depth = .ok close)
  (hfuel : sql.length ≤ index + fuel)

include hend hclose hfuel

theorem le_of_scanCode : index ≤ close := by
  apply scanCode_induction (I := fun at' _ => index ≤ at') (Q := fun close => index ≤ close)
    _ _ _ fuel hfuel le_rfl hclose
  · exact fun at' _ next hle _ hskip => hle.trans (lt_of_skipNonCode hskip).le
  · intro at' depth character part hle _ _ _ hpart
    rcases visitParenthesis_cases character depth with ⟨depth', hgo⟩ | ⟨-, hdone⟩
    · rw [hgo] at hpart
      obtain rfl := Except.ok.inj hpart
      exact ⟨Nat.lt_succ_self _, hle.trans (Nat.le_succ _)⟩
    · rw [hdone] at hpart
      obtain rfl := Except.ok.inj hpart
      exact hle
  · exact fun _ depth result _ _ hresult => absurd hresult (hend depth result)

/-- The parenthesis that is found depends on what comes before it. -/
theorem scanCode_local (hfuel' : sql'.length ≤ index' + fuel')
    (h : Agree (close - index + 1) (sql.drop index) (sql'.drop index')) :
    scanCode sql' sql'.length visitParenthesis atEnd' fuel' index' depth =
      .ok (index' + (close - index)) := by
  induction fuel generalizing index index' fuel' depth with
  | zero => exact absurd hclose (hend depth close)
  | succ fuel ih =>
    have hle := le_of_scanCode hend hclose hfuel
    rw [scanCode] at hclose
    split_ifs at hclose with hstop
    · exact absurd hclose (hend depth close)
    have hlt : index < sql.length := Nat.lt_of_not_le hstop
    have hfirst : Agree (0 + 1) (sql.drop index) (sql'.drop index') := h.mono (by omega)
    have hhead := hfirst.getElem?
    rw [getElem?_eq_getElem hlt] at hhead
    obtain ⟨hlt', hget⟩ := List.getElem?_eq_some_iff.mp hhead.symm
    obtain ⟨fuel', rfl⟩ := Nat.exists_eq_add_of_le' (by omega : 1 ≤ fuel')
    rw [scanCode, if_neg (by omega)]
    obtain ⟨skipped, hskipped, hclose⟩ := bind_eq_ok.mp hclose
    -- what is left agrees behind what is passed here
    have hnexts : ∀ {next depth'}, index < next →
        scanCode sql sql.length visitParenthesis atEnd fuel next depth' = .ok close →
        scanCode sql' sql'.length visitParenthesis atEnd' fuel' (index' + (next - index)) depth' =
          .ok (index' + (close - index)) := by
      intro next depth' hnext hscan
      have hle' := le_of_scanCode hend hscan (by omega)
      have hrest := h.behind hnext.le hle'
      rw [ih hscan (by omega) (by omega) hrest]
      congr 1
      omega
    cases skipped with
    | some next =>
      have hnext := lt_of_skipNonCode hskipped
      have hscan : scanCode sql sql.length visitParenthesis atEnd fuel next depth = .ok close :=
        hclose
      have hle' := le_of_scanCode hend hscan (by omega)
      rw [skipNonCode_local hskipped (h.mono (by omega))]
      exact hnexts hnext hscan
    | none =>
      rw [getElem?_eq_getElem hlt] at hclose
      dsimp only at hclose
      rcases visitParenthesis_cases sql[index] depth with ⟨depth', hgo⟩ | ⟨hcharacter, hdone⟩
      · rw [hgo] at hclose
        have hscan : scanCode sql sql.length visitParenthesis atEnd fuel (index + 1) depth' =
          .ok close := hclose
        have hle' := le_of_scanCode hend hscan (by omega)
        rw [skipNonCode_none_local hskipped (h.mono (by omega)), ← hhead]
        show (visitParenthesis index' sql[index] depth >>= _) = _
        rw [hgo]
        have hrest := hnexts (by omega : index < index + 1) hscan
        rw [Nat.add_sub_cancel_left] at hrest
        exact hrest
      · rw [hdone] at hclose
        obtain rfl := Except.ok.inj hclose
        have hcode : skipNonCode sql' index' = .ok none := by
          rw [skipNonCode, drop_eq_getElem_cons hlt', hget, hcharacter]
          rfl
        rw [hcode, ← hhead]
        show (visitParenthesis index' sql[index] depth >>= _) = _
        rw [hdone, Nat.sub_self]
        rfl

end

end

theorem findMatchingParenthesis_eq (sql : List Char) (openIndex : ℕ) (context : String) :
    ∃ error, findMatchingParenthesis sql openIndex context =
      scanCode sql sql.length visitParenthesis (fun _ => .error error) (sql.length - openIndex)
        (openIndex + 1) 1 := ⟨_, rfl⟩

theorem lt_of_findMatchingParenthesis {openIndex closeIndex : ℕ} {context : String}
    (h : findMatchingParenthesis sql openIndex context = .ok closeIndex) :
    openIndex < closeIndex := by
  obtain ⟨error, hscan⟩ := findMatchingParenthesis_eq sql openIndex context
  rw [hscan] at h
  exact le_of_scanCode (by simp) h (by omega)

/-- What `find_matching_parenthesis` finds depends on what comes before it. -/
theorem findMatchingParenthesis_local {openIndex openIndex' closeIndex : ℕ} {context : String}
    (hclose : findMatchingParenthesis sql openIndex context = .ok closeIndex)
    (h : Agree (closeIndex - openIndex + 1) (sql.drop openIndex) (sql'.drop openIndex')) :
    findMatchingParenthesis sql' openIndex' context = .ok
      (openIndex' + (closeIndex - openIndex)) := by
  have hlt := lt_of_findMatchingParenthesis hclose
  obtain ⟨error, hscan⟩ := findMatchingParenthesis_eq sql openIndex context
  obtain ⟨error', hscan'⟩ := findMatchingParenthesis_eq sql' openIndex' context
  have hrest : Agree (closeIndex - (openIndex + 1) + 1) (sql.drop (openIndex + 1))
      (sql'.drop (openIndex' + 1)) :=
    Agree.drop (h.mono (by omega))
  rw [hscan] at hclose
  rw [hscan', scanCode_local (by simp) hclose (by omega) (by omega) hrest]
  congr 1
  omega

end SqlTide.SqlText
