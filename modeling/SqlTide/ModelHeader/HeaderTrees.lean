import SqlTide.Foundations.PythonDict
import SqlTide.ModelHeader.Parser

/-!
# Header trees

What a header says is a tree of maps, lists, quoted strings and words. A tree can be rendered in
many ways. All of them are parsed to the value of the tree, unless it is too deep for the parser.
-/

namespace SqlTide.ModelHeader

open Foundations List SqlText

mutual

/-- A word can have entries in parentheses behind it, which stand for a map of one entry. -/
inductive HeaderTree
  | quoted (text : List Char)
  | word (word : List Char)
  | list (items : HeaderItems)
  | map (entries : HeaderEntries)
  | call (word : List Char) (entries : HeaderEntries)

inductive HeaderItems
  | nil
  | cons (item : HeaderTree) (items : HeaderItems)

/-- The entries of a map as they are written: keys may repeat. -/
inductive HeaderEntries
  | nil
  | cons (key : List Char) (value : HeaderTree) (entries : HeaderEntries)

end

mutual

/-- How many lists and maps are inside of each other. -/
def HeaderTree.depth : HeaderTree → ℕ
  | .quoted _ | .word _ => 0
  | .list items => items.depth + 1
  | .map entries | .call _ entries => entries.depth + 1

def HeaderItems.depth : HeaderItems → ℕ
  | .nil => 0
  | .cons item items => max item.depth items.depth

def HeaderEntries.depth : HeaderEntries → ℕ
  | .nil => 0
  | .cons _ value entries => max value.depth entries.depth

end

mutual

/-- The value of a tree: a key that repeats keeps its first place and has its last value. -/
def HeaderTree.value : HeaderTree → HeaderValue
  | .quoted text => .text text
  | .word word => .text word
  | .list items => .list items.values
  | .map entries => .map (dictItems entries.values)
  | .call word entries => .map [(word, .map (dictItems entries.values))]

def HeaderItems.values : HeaderItems → List HeaderValue
  | .nil => []
  | .cons item items => item.value :: items.values

def HeaderEntries.values : HeaderEntries → List (List Char × HeaderValue)
  | .nil => []
  | .cons key value entries => (key, value.value) :: entries.values

end

/-- A word that is a literal. -/
def isSpecial (word : List Char) : Bool :=
  word = "true".toList || word = "false".toList || word = "null".toList || isInteger word ||
    isFloat word

def Token.isSymbol (token : Token) (symbol : Char) : Bool :=
  token.kind = .symbol && token.value = [symbol]

mutual

/-- The tokens of a tree, at any positions. Commas can stand between items and entries, and one
must where an item that is a word comes before an opening parenthesis. -/
def HeaderTree.Renders : HeaderTree → List Token → Prop
  | .quoted text, tokens => ∃ position, tokens = [⟨.text, text, position⟩]
  | .word word, tokens => isSpecial word = false ∧ ∃ position, tokens = [⟨.word, word, position⟩]
  | .list items, tokens => ∃ opening inner closing, items.Renders inner ∧
      tokens = ⟨.symbol, ['['], opening⟩ :: (inner ++ [⟨.symbol, [']'], closing⟩])
  | .map entries, tokens => ∃ opening inner closing, entries.Renders inner ∧
      tokens = ⟨.symbol, ['('], opening⟩ :: (inner ++ [⟨.symbol, [')'], closing⟩])
  | .call word entries, tokens => ∃ position opening inner closing, entries.Renders inner ∧
      tokens = ⟨.word, word, position⟩ :: ⟨.symbol, ['('], opening⟩ ::
        (inner ++ [⟨.symbol, [')'], closing⟩])

def HeaderItems.Renders : HeaderItems → List Token → Prop
  | .nil, tokens => ∀ token ∈ tokens, token.isSymbol ','
  | .cons item items, tokens => ∃ commas own rest, (∀ token ∈ commas, Token.isSymbol token ',') ∧
      item.Renders own ∧ items.Renders rest ∧ tokens = commas ++ (own ++ rest) ∧
      ((∃ word, item = .word word) → ∀ token ∈ rest.head?, Token.isSymbol token '(' = false)

def HeaderEntries.Renders : HeaderEntries → List Token → Prop
  | .nil, tokens => ∀ token ∈ tokens, token.isSymbol ','
  | .cons key value entries, tokens => ∃ commas position own rest,
      (∀ token ∈ commas, Token.isSymbol token ',') ∧ value.Renders own ∧ entries.Renders rest ∧
      tokens = commas ++ ⟨.word, key, position⟩ :: (own ++ rest)

end

/-- The text of a header with these entries. -/
def HeaderEntries.RendersText (entries : HeaderEntries) (header : List Char) : Prop :=
  ∃ tokens, entries.Renders tokens ∧ LaidOut 0 tokens header

variable {tokens rest own : List Token} {token : Token} {symbol : Char} {fuel depth : ℕ}
  {word key : List Char} {values : List (List Char × HeaderValue)} {endSymbol : Option Char}

theorem insertEntry_of_not_mem {ν : Type} {entries : List (List Char × ν)} {value : ν}
    (h : key ∉ entries.map (·.1)) : insertEntry entries key value = entries ++ [(key, value)] := by
  induction entries with
  | nil => rfl
  | cons entry entries ih =>
    rw [map_cons, mem_cons, not_or] at h
    rw [insertEntry, if_neg (Ne.symm h.1), ih h.2, cons_append]

theorem insertEntry_of_mem {ν : Type} {entries : List (List Char × ν)} {value : ν}
    (hkeys : (entries.map (·.1)).Nodup) (h : key ∈ entries.map (·.1)) :
    insertEntry entries key value =
      entries.map fun entry => if entry.1 = key then (key, value) else entry := by
  induction entries with
  | nil => cases h
  | cons entry entries ih =>
    rw [map_cons, nodup_cons] at hkeys
    rw [map_cons, mem_cons] at h
    by_cases hentry : entry.1 = key
    · have hrest : entries.map (fun entry => if entry.1 = key then (key, value) else entry) =
          entries := by
        rw [map_congr_left (g := id), map_id]
        intro other hother
        rw [if_neg, id]
        rintro rfl
        exact hkeys.1 (hentry ▸ mem_map_of_mem hother)
      rw [insertEntry, if_pos hentry, map_cons, if_pos hentry, hrest]
    · rw [insertEntry, if_neg hentry, map_cons, if_neg hentry,
        ih hkeys.2 (h.resolve_left (Ne.symm hentry))]

theorem foldl_insertEntry {ν : Type} (entries : List (List Char × ν)) :
    entries.foldl (fun values entry => insertEntry values entry.1 entry.2) [] =
      dictItems entries := by
  induction entries using reverseRecOn with
  | nil => rfl
  | append_singleton entries entry ih =>
    rw [foldl_append, ih]
    show insertEntry (dictItems entries) entry.1 entry.2 = _
    by_cases hmem : entry.1 ∈ entries.map (·.1)
    · rw [dictItems_append_of_mem hmem]
      exact insertEntry_of_mem (nodup_map_fst_dictItems entries) (mem_map_fst_dictItems.mpr hmem)
    · rw [dictItems_append_of_not_mem hmem]
      exact insertEntry_of_not_mem fun hkey => hmem (mem_map_fst_dictItems.mp hkey)

/-- What a value or a key begins with is no comma no colon and no end of a list or a map. -/
structure Token.Begins (token : Token) : Prop where
  kind : token.kind ≠ .stop
  comma : token.isSymbol ',' = false
  colon : token.isSymbol ':' = false
  bracket : token.isSymbol ']' = false
  parenthesis : token.isSymbol ')' = false

theorem begins_word (word : List Char) (position : ℕ) : Token.Begins ⟨.word, word, position⟩ :=
  ⟨by simp, rfl, rfl, rfl, rfl⟩

theorem isSymbol_eq (h : token.isSymbol symbol = true) :
    ∃ position, token = ⟨.symbol, [symbol], position⟩ := by
  obtain ⟨kind, value, position⟩ := token
  simp only [Token.isSymbol, Bool.and_eq_true, decide_eq_true_eq] at h
  exact ⟨position, by rw [h.1, h.2]⟩

theorem HeaderTree.Renders.begins {tree : HeaderTree} (h : tree.Renders own) :
    ∃ token rest, own = token :: rest ∧ token.Begins := by
  cases tree with
  | quoted text =>
    obtain ⟨position, rfl⟩ := h
    exact ⟨_, _, rfl, by simp, rfl, rfl, rfl, rfl⟩
  | word word =>
    obtain ⟨-, position, rfl⟩ := h
    exact ⟨_, _, rfl, begins_word word position⟩
  | list items =>
    obtain ⟨opening, inner, closing, -, rfl⟩ := h
    exact ⟨_, _, rfl, by simp, rfl, rfl, rfl, rfl⟩
  | map entries =>
    obtain ⟨opening, inner, closing, -, rfl⟩ := h
    exact ⟨_, _, rfl, by simp, rfl, rfl, rfl, rfl⟩
  | call word entries =>
    obtain ⟨position, opening, inner, closing, -, rfl⟩ := h
    exact ⟨_, _, rfl, begins_word word position⟩

theorem HeaderItems.Renders.tail {items : HeaderItems} (h : items.Renders (token :: rest))
    (htoken : token.isSymbol ',' = true) : items.Renders rest := by
  cases items with
  | nil => exact fun other hother => h other (mem_cons_of_mem _ hother)
  | cons item items =>
    obtain ⟨commas, own, after, hcommas, hown, hafter, htokens, hword⟩ := h
    cases commas with
    | nil =>
      obtain ⟨first, inner, rfl, hfirst⟩ := HeaderTree.Renders.begins hown
      obtain ⟨rfl, -⟩ := List.cons.inj htokens
      rw [hfirst.comma] at htoken
      cases htoken
    | cons comma commas =>
      obtain ⟨-, rfl⟩ := List.cons.inj htokens
      exact ⟨commas, own, after, fun other hother => hcommas other (mem_cons_of_mem _ hother),
        hown, hafter, rfl, hword⟩

theorem HeaderEntries.Renders.tail {entries : HeaderEntries} (h : entries.Renders (token :: rest))
    (htoken : token.isSymbol ',' = true) : entries.Renders rest := by
  cases entries with
  | nil => exact fun other hother => h other (mem_cons_of_mem _ hother)
  | cons key value entries =>
    obtain ⟨commas, position, own, after, hcommas, hown, hafter, htokens⟩ := h
    cases commas with
    | nil =>
      obtain ⟨rfl, -⟩ := List.cons.inj htokens
      cases htoken
    | cons comma commas =>
      obtain ⟨-, rfl⟩ := List.cons.inj htokens
      exact ⟨commas, position, own, after,
        fun other hother => hcommas other (mem_cons_of_mem _ hother), hown, hafter, rfl⟩

theorem HeaderEntries.Renders.head {entries : HeaderEntries} (h : entries.Renders tokens) :
    ∀ token ∈ tokens.head?, token.kind ≠ .stop ∧ token.isSymbol '(' = false := by
  have hcomma : ∀ {token : Token}, token.isSymbol ',' = true →
      token.kind ≠ .stop ∧ token.isSymbol '(' = false := by
    intro token htoken
    obtain ⟨position, rfl⟩ := isSymbol_eq htoken
    exact ⟨by simp, rfl⟩
  cases entries with
  | nil => exact fun token htoken => hcomma (h token (mem_of_mem_head? htoken))
  | cons key value entries =>
    obtain ⟨commas, position, own, after, hcommas, -, -, rfl⟩ := h
    cases commas with
    | nil =>
      rintro token ⟨⟩
      exact ⟨by simp, rfl⟩
    | cons comma commas =>
      rintro token ⟨⟩
      exact hcomma (hcommas comma mem_cons_self)

theorem peekIsSymbol_cons (symbol : Char) :
    (Parser.mk (token :: rest) depth).peekIsSymbol symbol = .ok (token.isSymbol symbol) := rfl

theorem matchSymbol_of_isSymbol (h : token.isSymbol symbol = true) :
    (Parser.mk (token :: rest) depth).matchSymbol symbol = .ok (true, ⟨rest, depth⟩) := by
  rw [Parser.matchSymbol, peekIsSymbol_cons, ok_bind, if_pos h]
  rfl

theorem matchSymbol_of_not_isSymbol (h : token.isSymbol symbol = false) :
    (Parser.mk (token :: rest) depth).matchSymbol symbol = .ok (false, ⟨token :: rest, depth⟩) := by
  rw [Parser.matchSymbol, peekIsSymbol_cons, ok_bind, if_neg (by simp [h])]

/-- The tokens at the end of a map, and what is left behind it. The End stays. -/
inductive Closing : Option Char → List Token → List Token → Prop
  | stop {token : Token} {rest : List Token} : token.kind = .stop →
      Closing none (token :: rest) (token :: rest)
  | parenthesis {position : ℕ} {rest : List Token} :
      Closing (some ')') (⟨.symbol, [')'], position⟩ :: rest) rest

theorem isAtEndSymbol_of_begins {closing : List Token} (hclosing : Closing endSymbol closing rest)
    (htoken : token.kind ≠ .stop) (hsymbol : token.isSymbol ')' = false) :
    (Parser.mk (token :: tokens) depth).isAtEndSymbol endSymbol = .ok false := by
  cases hclosing with
  | stop =>
    show Except.ok (decide (token.kind = .stop)) = _
    rw [decide_eq_false htoken]
  | parenthesis =>
    show Except.ok (token.isSymbol ')') = _
    rw [hsymbol]

theorem parseMap_closing {closing : List Token} (h : Closing endSymbol closing rest) (fuel : ℕ)
    (values : List (List Char × HeaderValue)) (depth : ℕ) :
    parseMap (fuel + 1) endSymbol values ⟨closing, depth⟩ = .ok (values, ⟨rest, depth⟩) := by
  rw [parseMap.eq_def]
  dsimp only
  cases h with
  | @stop token rest hstop =>
    have hend : (Parser.mk (token :: rest) depth).isAtEndSymbol none = .ok true := by
      show Except.ok (decide (token.kind = .stop)) = _
      rw [decide_eq_true hstop]
    rw [hend]
    rfl
  | parenthesis => rfl

theorem parseMap_comma {closing : List Token} (hclosing : Closing endSymbol closing rest)
    (htoken : token.isSymbol ',' = true) (fuel : ℕ) (values : List (List Char × HeaderValue))
    (depth : ℕ) :
    parseMap (fuel + 1) endSymbol values ⟨token :: tokens, depth⟩ =
      parseMap fuel endSymbol values ⟨tokens, depth⟩ := by
  obtain ⟨position, rfl⟩ := isSymbol_eq htoken
  rw [parseMap.eq_def]
  dsimp only
  rw [isAtEndSymbol_of_begins hclosing (by simp) rfl, ok_bind, if_neg (by simp),
    matchSymbol_of_isSymbol htoken, ok_bind]

theorem parseMap_commas {closing commas : List Token} (hclosing : Closing endSymbol closing rest)
    (hcommas : ∀ token ∈ commas, Token.isSymbol token ',') (fuel : ℕ)
    (values : List (List Char × HeaderValue)) (depth : ℕ) :
    parseMap (commas.length + fuel) endSymbol values ⟨commas ++ tokens, depth⟩ =
      parseMap fuel endSymbol values ⟨tokens, depth⟩ := by
  induction commas with
  | nil => rw [length_nil, Nat.zero_add, nil_append]
  | cons comma commas ih =>
    rw [length_cons, Nat.add_right_comm, cons_append,
      parseMap_comma hclosing (hcommas comma mem_cons_self),
      ih fun other hother => hcommas other (mem_cons_of_mem _ hother)]

/-- An entry: its key, its value, and a comma behind it if there is one. -/
theorem parseMap_entry {closing : List Token} (hclosing : Closing endSymbol closing rest)
    (htoken : token.Begins) (fuel position : ℕ)
    (values : List (List Char × HeaderValue)) (key : List Char) (depth : ℕ) :
    parseMap (fuel + 1) endSymbol values ⟨⟨.word, key, position⟩ :: token :: tokens, depth⟩ =
      (parseValue fuel ⟨token :: tokens, depth⟩ >>= fun read =>
        read.2.matchSymbol ',' >>= fun next =>
          parseMap fuel endSymbol (insertEntry values key read.1) next.2) := by
  have hkey : (Parser.mk (⟨.word, key, position⟩ :: token :: tokens) depth).consumeKey =
      .ok (key, ⟨token :: tokens, depth⟩) := rfl
  have hpeek : (Parser.mk (token :: tokens) depth).peek = .ok token := rfl
  rw [parseMap.eq_def]
  dsimp only
  rw [isAtEndSymbol_of_begins hclosing (by simp) rfl, ok_bind, if_neg (by simp),
    matchSymbol_of_not_isSymbol rfl, ok_bind]
  dsimp only
  rw [hkey, ok_bind]
  dsimp only
  rw [matchSymbol_of_not_isSymbol htoken.colon, ok_bind]
  dsimp only
  rw [isAtEndSymbol_of_begins hclosing htoken.kind htoken.parenthesis, ok_bind, hpeek, ok_bind,
    if_neg (by simp [htoken.kind])]

theorem parseList_closing (fuel position : ℕ) (values : List HeaderValue) (depth : ℕ) :
    parseList (fuel + 1) values ⟨⟨.symbol, [']'], position⟩ :: rest, depth⟩ =
      .ok (values, ⟨rest, depth⟩) := by
  rw [parseList.eq_def]
  rfl

theorem parseList_comma (htoken : token.isSymbol ',' = true) (fuel : ℕ) (values : List HeaderValue)
    (depth : ℕ) :
    parseList (fuel + 1) values ⟨token :: tokens, depth⟩ =
      parseList fuel values ⟨tokens, depth⟩ := by
  obtain ⟨position, rfl⟩ := isSymbol_eq htoken
  rw [parseList.eq_def]
  rfl

theorem parseList_commas {commas : List Token}
    (hcommas : ∀ token ∈ commas, Token.isSymbol token ',')
    (fuel : ℕ) (values : List HeaderValue) (depth : ℕ) :
    parseList (commas.length + fuel) values ⟨commas ++ tokens, depth⟩ =
      parseList fuel values ⟨tokens, depth⟩ := by
  induction commas with
  | nil => rw [length_nil, Nat.zero_add, nil_append]
  | cons comma commas ih =>
    rw [length_cons, Nat.add_right_comm, cons_append,
      parseList_comma (hcommas comma mem_cons_self),
      ih fun other hother => hcommas other (mem_cons_of_mem _ hother)]

theorem parseList_item (htoken : token.Begins) (fuel : ℕ) (values : List HeaderValue) (depth : ℕ) :
    parseList (fuel + 1) values ⟨token :: tokens, depth⟩ =
      (parseValue fuel ⟨token :: tokens, depth⟩ >>= fun read =>
        read.2.matchSymbol ',' >>= fun next => parseList fuel (values ++ [read.1]) next.2) := by
  have hend : (Parser.mk (token :: tokens) depth).isAtEndSymbol (some ']') = .ok false := by
    show Except.ok (token.isSymbol ']') = _
    rw [htoken.bracket]
  rw [parseList.eq_def]
  dsimp only
  rw [hend, ok_bind, if_neg (by simp), matchSymbol_of_not_isSymbol htoken.comma, ok_bind]

/-- What comes of a tree that needs so many levels more: its value, or the error that it is too
deep. -/
def Parsed {α : Type} (need depth : ℕ) (value : α) (rest : List Token)
    (result : ParseResult (α × Parser)) : Prop :=
  if depth + need ≤ maxHeaderNestingDepth then result = .ok (value, ⟨rest, depth⟩)
  else ∃ position, result = .error (.error (.tooDeep position))

section
variable {α β : Type} {need need' : ℕ} {value : α} {value' : β} {result : ParseResult (α × Parser)}
  {rest' : List Token}

theorem Parsed.bind {next : α × Parser → ParseResult (β × Parser)}
    (h : Parsed need depth value rest result) (hnext : depth + need ≤ maxHeaderNestingDepth →
      Parsed need' depth value' rest' (next (value, ⟨rest, depth⟩))) :
    Parsed (max need need') depth value' rest' (result >>= next) := by
  unfold Parsed at h
  split_ifs at h with hneed
  · rw [h, ok_bind]
    have hnext := hnext hneed
    unfold Parsed at hnext ⊢
    split_ifs at hnext ⊢ with hneed' hmax hmax
    · exact hnext
    · omega
    · omega
    · exact hnext
  · obtain ⟨position, rfl⟩ := h
    rw [Parsed, if_neg (by omega)]
    exact ⟨position, rfl⟩

theorem Parsed.map (f : α → β) (h : Parsed need depth value rest result) :
    Parsed need depth (f value) rest (result >>= fun read => .ok (f read.1, read.2)) := by
  rw [← Nat.max_zero need]
  apply h.bind
  intro hneed
  rw [Parsed, if_pos (by omega)]

theorem Parsed.of_ok (h : depth + need ≤ maxHeaderNestingDepth ∨ need = 0)
    (hdepth : depth ≤ maxHeaderNestingDepth) :
    Parsed need depth value rest (.ok (value, ⟨rest, depth⟩)) := by
  rw [Parsed, if_pos (by omega)]

theorem Parsed.nested {parse : Parser → ParseResult (α × Parser)}
    (h : Parsed need (depth + 1) value rest (parse ⟨token :: tokens, depth + 1⟩)) :
    Parsed (need + 1) depth value rest ((Parser.mk (token :: tokens) depth).nested parse) := by
  rw [Parser.nested]
  by_cases hdepth : maxHeaderNestingDepth ≤ depth
  · rw [if_pos hdepth, Parsed, if_neg (by omega)]
    exact ⟨token.position, rfl⟩
  · rw [if_neg hdepth]
    dsimp only
    unfold Parsed at h ⊢
    split_ifs at h ⊢ with hneed hneed' hneed'
    · rw [h]
      rfl
    · omega
    · omega
    · obtain ⟨position, hresult⟩ := h
      rw [hresult]
      exact ⟨position, rfl⟩

end

theorem parseValue_word (h : token.isSymbol '(' = false) (fuel position : ℕ) (word : List Char)
    (depth : ℕ) :
    parseValue (fuel + 1) ⟨⟨.word, word, position⟩ :: token :: rest, depth⟩ =
      .ok (wordValue word, ⟨token :: rest, depth⟩) := by
  have hpeek : (Parser.mk (token :: rest) depth).peekIsSymbol '(' = .ok false := by
    rw [peekIsSymbol_cons, h]
  have hvalue : parseValue (fuel + 1) ⟨⟨.word, word, position⟩ :: token :: rest, depth⟩ =
      ((Parser.mk (token :: rest) depth).peekIsSymbol '(' >>= fun opens =>
        if opens then
          (Parser.mk rest depth).nested (parseMap fuel (some ')') []) >>= fun read =>
            .ok (.map [(word, .map read.1)], read.2)
        else .ok (wordValue word, ⟨token :: rest, depth⟩)) := by
    rw [parseValue.eq_def]
    rfl
  rw [hvalue, hpeek]
  rfl

theorem parseValue_call (fuel position opening : ℕ) (word : List Char) (depth : ℕ) :
    parseValue (fuel + 1) ⟨⟨.word, word, position⟩ :: ⟨.symbol, ['('], opening⟩ :: rest, depth⟩ =
      ((Parser.mk rest depth).nested (parseMap fuel (some ')') []) >>= fun read =>
        .ok (.map [(word, .map read.1)], read.2)) := by
  rw [parseValue.eq_def]
  rfl

theorem parseValue_map (fuel opening depth : ℕ) :
    parseValue (fuel + 1) ⟨⟨.symbol, ['('], opening⟩ :: rest, depth⟩ =
      ((Parser.mk rest depth).nested (parseMap fuel (some ')') []) >>= fun read =>
        .ok (.map read.1, read.2)) := by
  rw [parseValue.eq_def]
  rfl

theorem parseValue_list (fuel opening depth : ℕ) :
    parseValue (fuel + 1) ⟨⟨.symbol, ['['], opening⟩ :: rest, depth⟩ =
      ((Parser.mk rest depth).nested (parseList fuel []) >>= fun read =>
        .ok (.list read.1, read.2)) := by
  rw [parseValue.eq_def]
  rfl

/-- What is behind a value that is a word must not open a parenthesis. -/
def HeaderTree.Ends (tree : HeaderTree) (rest : List Token) : Prop :=
  (∃ word, tree = .word word) → ∃ next after, rest = next :: after ∧ next.isSymbol '(' = false

theorem wordValue_of_not_special (h : isSpecial word = false) : wordValue word = .text word := by
  simp only [isSpecial, Bool.or_eq_false_iff, decide_eq_false_iff_not] at h
  obtain ⟨⟨⟨⟨htrue, hfalse⟩, hnull⟩, hinteger⟩, hfloat⟩ := h
  rw [wordValue, if_neg htrue, if_neg hfalse, if_neg hnull, if_neg (by simp [hinteger]),
    if_neg (by simp [hfloat])]

/-- A comma behind an item or an entry is passed, and what is left is a rendering still. -/
theorem matchSymbol_comma {Renders : List Token → Prop}
    (htail : ∀ {token rest}, Renders (token :: rest) → token.isSymbol ',' = true → Renders rest)
    (hrenders : Renders tokens) {closing : List Token}
    (hclosing : ∃ token rest, closing = token :: rest ∧ token.isSymbol ',' = false) :
    ∃ passed tokens', (Parser.mk (tokens ++ closing) depth).matchSymbol ',' =
      .ok (passed, ⟨tokens' ++ closing, depth⟩) ∧ Renders tokens' ∧
        tokens'.length ≤ tokens.length := by
  cases tokens with
  | nil =>
    obtain ⟨token, rest, rfl, htoken⟩ := hclosing
    exact ⟨false, [], matchSymbol_of_not_isSymbol htoken, hrenders, le_rfl⟩
  | cons token tokens =>
    cases htoken : token.isSymbol ',' with
    | true =>
      exact ⟨true, tokens, matchSymbol_of_isSymbol htoken, htail hrenders htoken, Nat.le_succ _⟩
    | false => exact ⟨false, token :: tokens, matchSymbol_of_not_isSymbol htoken, hrenders, le_rfl⟩

theorem Closing.head {closing : List Token} (h : Closing endSymbol closing rest) :
    ∃ token rest, closing = token :: rest ∧ token.isSymbol ',' = false ∧
      token.isSymbol '(' = false := by
  cases h with
  | @stop token rest hstop =>
    exact ⟨token, rest, rfl, by simp [Token.isSymbol, hstop], by simp [Token.isSymbol, hstop]⟩
  | parenthesis => exact ⟨_, _, rfl, rfl, rfl⟩

theorem nested_renders {α : Type} {parse : Parser → ParseResult (α × Parser)} {need : ℕ} {value : α}
    {inner closing : List Token} (hclosing : ∃ token after, closing = token :: after)
    (h : depth + 1 ≤ maxHeaderNestingDepth →
      Parsed need (depth + 1) value rest (parse ⟨inner ++ closing, depth + 1⟩)) :
    Parsed (need + 1) depth value rest ((Parser.mk (inner ++ closing) depth).nested parse) := by
  have hcons : ∃ token after, inner ++ closing = token :: after := by
    obtain ⟨token, after, rfl⟩ := hclosing
    cases inner with
    | nil => exact ⟨token, after, rfl⟩
    | cons first inner => exact ⟨first, inner ++ token :: after, rfl⟩
  obtain ⟨token, after, hcons⟩ := hcons
  rw [hcons] at h ⊢
  by_cases hdepth : maxHeaderNestingDepth ≤ depth
  · rw [Parser.nested, if_pos hdepth, Parsed, if_neg (by omega)]
    exact ⟨token.position, rfl⟩
  · exact Parsed.nested (h (by omega))

mutual

theorem parseValue_renders (tree : HeaderTree) {own rest : List Token} {fuel depth : ℕ}
    (h : tree.Renders own) (hends : tree.Ends rest) (hfuel : own.length ≤ fuel)
    (hdepth : depth ≤ maxHeaderNestingDepth) :
    Parsed tree.depth depth tree.value rest (parseValue fuel ⟨own ++ rest, depth⟩) := by
  match tree, h with
  | .quoted text, h =>
    obtain ⟨position, rfl⟩ := h
    obtain ⟨fuel, rfl⟩ := Nat.exists_eq_add_of_le' hfuel
    exact Parsed.of_ok (Or.inr rfl) hdepth
  | .word word, h =>
    obtain ⟨hspecial, position, rfl⟩ := h
    obtain ⟨fuel, rfl⟩ := Nat.exists_eq_add_of_le' hfuel
    obtain ⟨next, after, rfl, hnext⟩ := hends ⟨word, rfl⟩
    rw [length_singleton, singleton_append, parseValue_word hnext,
      wordValue_of_not_special hspecial]
    exact Parsed.of_ok (Or.inr rfl) hdepth
  | .list items, h =>
    obtain ⟨opening, inner, closing, hitems, rfl⟩ := h
    rw [length_cons] at hfuel
    obtain ⟨fuel, rfl⟩ := Nat.exists_eq_add_of_le' hfuel
    rw [cons_append, append_assoc, ← Nat.add_assoc, parseValue_list]
    apply Parsed.map HeaderValue.list
    refine nested_renders ⟨_, _, rfl⟩ fun hdepth => ?_
    apply parseList_renders items hitems _ hdepth []
    rw [length_append, length_singleton]
    omega
  | .map entries, h =>
    obtain ⟨opening, inner, closing, hentries, rfl⟩ := h
    rw [length_cons] at hfuel
    obtain ⟨fuel, rfl⟩ := Nat.exists_eq_add_of_le' hfuel
    rw [cons_append, append_assoc, ← Nat.add_assoc, parseValue_map]
    rw [HeaderTree.value, ← foldl_insertEntry]
    apply Parsed.map HeaderValue.map
    refine nested_renders ⟨_, _, rfl⟩ fun hdepth => ?_
    apply parseMap_renders entries hentries Closing.parenthesis _ hdepth []
    rw [length_append, length_singleton]
    omega
  | .call word entries, h =>
    obtain ⟨position, opening, inner, closing, hentries, rfl⟩ := h
    rw [length_cons, length_cons] at hfuel
    obtain ⟨fuel, rfl⟩ := Nat.exists_eq_add_of_le' hfuel
    rw [cons_append, cons_append, append_assoc, ← Nat.add_assoc, parseValue_call]
    rw [HeaderTree.value, ← foldl_insertEntry]
    apply Parsed.map fun values => HeaderValue.map [(word, .map values)]
    refine nested_renders ⟨_, _, rfl⟩ fun hdepth => ?_
    apply parseMap_renders entries hentries Closing.parenthesis _ hdepth []
    rw [length_append, length_singleton]
    omega

theorem parseList_renders (items : HeaderItems) {inner rest : List Token} {fuel depth closing : ℕ}
    (h : items.Renders inner) (hfuel : inner.length < fuel) (hdepth : depth ≤ maxHeaderNestingDepth)
    (values : List HeaderValue) :
    Parsed items.depth depth (values ++ items.values) rest
      (parseList fuel values ⟨inner ++ ⟨.symbol, [']'], closing⟩ :: rest, depth⟩) := by
  match items, h with
  | .nil, h =>
    obtain ⟨fuel, rfl⟩ := Nat.exists_eq_add_of_le hfuel
    rw [Nat.succ_add, ← Nat.add_succ, parseList_commas h, parseList_closing, HeaderItems.values,
      append_nil]
    exact Parsed.of_ok (Or.inr rfl) hdepth
  | .cons item items, h =>
    obtain ⟨commas, own, after, hcommas, hown, hafter, rfl, hword⟩ := h
    obtain ⟨token, others, hcons, htoken⟩ := hown.begins
    have hends : item.Ends (after ++ ⟨.symbol, [']'], closing⟩ :: rest) := by
      intro hitem
      cases after with
      | nil => exact ⟨_, _, rfl, rfl⟩
      | cons next after => exact ⟨next, _, rfl, hword hitem next rfl⟩
    rw [length_append, length_append] at hfuel
    obtain ⟨fuel, rfl⟩ := Nat.exists_eq_add_of_le (by omega : commas.length + 1 ≤ fuel)
    rw [Nat.add_assoc, append_assoc, parseList_commas hcommas, Nat.add_comm 1, append_assoc]
    have hitem := parseValue_renders item hown hends (by omega : own.length ≤ fuel) hdepth
    rw [hcons, cons_append] at hitem ⊢
    rw [parseList_item htoken]
    apply hitem.bind
    intro hneed
    obtain ⟨passed, tokens', hcomma, hrenders, hlength⟩ :=
      @matchSymbol_comma after depth items.Renders
      HeaderItems.Renders.tail hafter (⟨.symbol, [']'], closing⟩ :: rest) ⟨_, _, rfl, rfl⟩
    dsimp only
    rw [hcomma, ok_bind, HeaderItems.values, ← singleton_append, ← append_assoc]
    have hown : 0 < own.length := by
      rw [hcons, length_cons]
      omega
    exact parseList_renders items hrenders (by omega) hdepth (values ++ [item.value])

theorem parseMap_renders (entries : HeaderEntries) {inner closing rest : List Token}
    {fuel depth : ℕ} {endSymbol : Option Char} (h : entries.Renders inner)
    (hclosing : Closing endSymbol closing rest) (hfuel : inner.length < fuel)
    (hdepth : depth ≤ maxHeaderNestingDepth) (values : List (List Char × HeaderValue)) :
    Parsed entries.depth depth
      (entries.values.foldl (fun values entry => insertEntry values entry.1 entry.2) values) rest
      (parseMap fuel endSymbol values ⟨inner ++ closing, depth⟩) := by
  match entries, h with
  | .nil, h =>
    obtain ⟨fuel, rfl⟩ := Nat.exists_eq_add_of_le hfuel
    rw [Nat.succ_add, ← Nat.add_succ, parseMap_commas hclosing h, parseMap_closing hclosing]
    exact Parsed.of_ok (Or.inr rfl) hdepth
  | .cons key value entries, h =>
    obtain ⟨commas, position, own, after, hcommas, hown, hafter, rfl⟩ := h
    obtain ⟨token, others, hcons, htoken⟩ := hown.begins
    obtain ⟨last, behind, hlast, hcomma, hopening⟩ := hclosing.head
    have hends : value.Ends (after ++ closing) := by
      intro _
      cases after with
      | nil => exact ⟨last, behind, hlast, hopening⟩
      | cons next after => exact ⟨next, _, rfl, (hafter.head next rfl).2⟩
    rw [length_append, length_cons, length_append] at hfuel
    obtain ⟨fuel, rfl⟩ := Nat.exists_eq_add_of_le (by omega : commas.length + 1 ≤ fuel)
    rw [Nat.add_assoc, append_assoc, parseMap_commas hclosing hcommas, Nat.add_comm 1,
      cons_append, append_assoc]
    have hvalue := parseValue_renders value hown hends (by omega : own.length ≤ fuel) hdepth
    rw [hcons, cons_append] at hvalue ⊢
    rw [parseMap_entry hclosing htoken]
    apply hvalue.bind
    intro hneed
    obtain ⟨passed, tokens', hcomma, hrenders, hlength⟩ :=
      @matchSymbol_comma after depth entries.Renders
      HeaderEntries.Renders.tail hafter closing ⟨last, behind, hlast, hcomma⟩
    dsimp only
    rw [hcomma, ok_bind]
    exact parseMap_renders entries hrenders hclosing (by omega) hdepth _

end

/-- What a text comes to: a value, or an error that names a position in the text or a word of it. -/
def HeaderOutcome (header : List Char) : ParseResult (List (List Char × HeaderValue)) → Prop
  | .ok _ => True
  | .error (.error error) =>
    match error.position with
    | some position => position ≤ header.length
    | none => ∃ tokens, tokenize header = .ok tokens ∧ ∃ token ∈ tokens, token.kind = .word ∧
        (error = .colonAfterKey token.value ∨ error = .missingValue token.value)
  | .error _ => False

theorem headerOutcome (header : List Char) : HeaderOutcome header (parseModelHeader header) := by
  have htokens := tokenize_outcome header
  unfold parseModelHeader
  cases htokenize : tokenize header with
  | error error =>
    rw [htokenize] at htokens
    obtain ⟨position, hposition, hlt⟩ := htokens
    show match error.position with
      | some position => _
      | none => _
    rw [Option.mem_def.mp hposition]
    exact hlt.le
  | ok tokens =>
    rw [htokenize] at htokens
    obtain ⟨hended, hpositions⟩ := htokens
    have hparse := parse_outcome hended
    show HeaderOutcome header (parse tokens)
    cases hresult : parse tokens with
    | ok values => trivial
    | error failure =>
      rw [hresult] at hparse
      cases failure with
      | pastEnd => exact hparse
      | outOfFuel => exact hparse
      | error error =>
        unfold HeaderOutcome
        unfold Located at hparse
        dsimp only at hparse ⊢
        cases hposition : error.position with
        | some position =>
          rw [hposition] at hparse
          obtain ⟨token, htoken, rfl⟩ := hparse
          exact hpositions token htoken
        | none =>
          rw [hposition] at hparse
          exact ⟨tokens, htokenize, hparse⟩

/-- The tokens of a header with these entries are parsed, up to the limit and no deeper. -/
theorem parse_renders {entries : HeaderEntries} (h : entries.Renders tokens)
    (hlast : token.kind = .stop) :
    if entries.depth ≤ maxHeaderNestingDepth then
      parse (tokens ++ [token]) = .ok (dictItems entries.values)
    else ∃ position, parse (tokens ++ [token]) = .error (.error (.tooDeep position)) := by
  have hmap : Parsed entries.depth 0 _ [token]
      (parseMap (2 * (tokens ++ [token]).length + 1) none [] ⟨tokens ++ [token], 0⟩) :=
    parseMap_renders entries h (Closing.stop hlast) (by rw [length_append]; omega)
      (Nat.zero_le _) []
  rw [foldl_insertEntry, Parsed, Nat.zero_add] at hmap
  cases tokens with
  | nil =>
    cases entries with
    | nil =>
      have hdepth : HeaderEntries.nil.depth ≤ maxHeaderNestingDepth := Nat.zero_le _
      rw [if_pos hdepth]
      show (if token.kind = .stop then _ else _) = _
      rw [if_pos hlast]
      rfl
    | cons key value entries =>
      obtain ⟨commas, position, own, rest, -, -, -, hnil⟩ := h
      simp at hnil
  | cons first tokens =>
    have hkind : ¬ first.kind = .stop := (h.head first rfl).1
    have hparse : parse (first :: tokens ++ [token]) =
        (parseMap (2 * (first :: tokens ++ [token]).length + 1) none []
          ⟨first :: tokens ++ [token], 0⟩ >>= fun read => do
            read.2.expectEnd
            .ok read.1) := by
      rw [parse]
      show (if first.kind = .stop then _ else _) = _
      rw [if_neg hkind]
    have hend : (Parser.mk [token] 0).expectEnd = .ok () := by
      show (if token.kind ≠ .stop then _ else _) = _
      rw [if_neg (not_not.mpr hlast)]
    split_ifs at hmap ⊢ with hdepth
    · rw [hparse, hmap, ok_bind, hend]
      rfl
    · obtain ⟨position, hmap⟩ := hmap
      exact ⟨position, by rw [hparse, hmap]; rfl⟩

/-- Every text comes to a value or to an error of the header. A text with the entries of a header
comes to their dictionary, or to the error that it is too deep if it is. -/
theorem parseModelHeader_entries (header : List Char) :
    HeaderOutcome header (parseModelHeader header) ∧
      ∀ entries : HeaderEntries, entries.RendersText header →
        if entries.depth ≤ maxHeaderNestingDepth then
          parseModelHeader header = .ok (dictItems entries.values)
        else ∃ position ≤ header.length, parseModelHeader header = .error
          (.error (.tooDeep position)) := by
  refine ⟨headerOutcome header, fun entries hentries => ?_⟩
  obtain ⟨tokens, hrenders, hlaidOut⟩ := hentries
  have htokens : parseModelHeader header = parse (tokens ++ [⟨.stop, [], 0 + header.length⟩]) := by
    rw [parseModelHeader, tokenize, tokenizeLoop_laidOut hlaidOut _ le_rfl]
    rfl
  have hparse := @parse_renders tokens ⟨.stop, [], 0 + header.length⟩ entries hrenders rfl
  rw [← htokens] at hparse
  split_ifs at hparse ⊢ with hdepth
  · exact hparse
  · obtain ⟨position, hposition⟩ := hparse
    have houtcome := headerOutcome header
    rw [hposition] at houtcome
    exact ⟨position, houtcome, hposition⟩

theorem parseModelHeader_entries_repeated :
    parseModelHeader "a b a 'c'".toList = .ok [("a".toList, .text "c".toList)] := by
  have hword : ∀ letter, endsWord letter = false → quoteName letter = none →
      TokenText .word [letter] [letter] := by
    intro letter hends hquote
    exact TokenText.word ⟨by simp, by simpa using ⟨hends, hquote⟩⟩
  have hquoted : TokenText .text "c".toList "'c'".toList :=
    @TokenText.quoted '\'' _ _ rfl (QuotedText.plain (by decide) (by decide) QuotedText.nil)
  have hlaidOut : LaidOut 0 [⟨.word, "a".toList, 0⟩, ⟨.word, "b".toList, 2⟩, ⟨.word, "a".toList, 4⟩,
      ⟨.text, "c".toList, 6⟩] "a b a 'c'".toList := by
    have hspace : ∀ character ∈ [' '], pythonIsspace character = true := by simp; decide
    have hspaceEnds :
      ∀ rest character, character ∈ (' ' :: rest).head? → endsWord character = true := by
      rintro rest character ⟨⟩
      rfl
    apply @LaidOut.cons 0 [] _ _ " b a 'c'".toList _ _ (by simp) (hword 'a' rfl rfl)
    · exact fun _ => hspaceEnds "b a 'c'".toList
    apply @LaidOut.cons 1 [' '] _ _ " a 'c'".toList _ _ hspace (hword 'b' rfl rfl)
    · exact fun _ => hspaceEnds "a 'c'".toList
    apply @LaidOut.cons 3 [' '] _ _ " 'c'".toList _ _ hspace (hword 'a' rfl rfl)
    · exact fun _ => hspaceEnds "'c'".toList
    apply @LaidOut.cons 5 [' '] _ _ [] _ _ hspace hquoted (by simp)
    exact LaidOut.stop (by simp)
  have hentries : (HeaderEntries.cons "a".toList (.word "b".toList)
      (.cons "a".toList (.quoted "c".toList) .nil)).Renders [⟨.word, "a".toList, 0⟩,
        ⟨.word, "b".toList, 2⟩, ⟨.word, "a".toList, 4⟩, ⟨.text, "c".toList, 6⟩] :=
    ⟨[], 0, [_], [_, _], by simp, ⟨by decide, 2, rfl⟩,
      ⟨[], 4, [_], [], by simp, ⟨6, rfl⟩, by simp [HeaderEntries.Renders], rfl⟩, rfl⟩
  exact (parseModelHeader_entries "a b a 'c'".toList).2 _ ⟨_, hentries, hlaidOut⟩

/-- A key without a value has no position. -/
theorem not_located_of_missingValue : ¬ ∀ header error,
    parseModelHeader header = .error (.error error) → ∃ position,
      error.position = some position := by
  intro h
  obtain ⟨position, hposition⟩ := h "engine".toList (.missingValue "engine".toList) rfl
  cases hposition

end SqlTide.ModelHeader
