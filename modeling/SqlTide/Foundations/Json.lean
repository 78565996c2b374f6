import Mathlib.Data.List.Sort
import Mathlib.Data.String.Basic
import Mathlib.Tactic

/-!
# JSON values and their compact text

The text is the one Python's `json.dumps` writes with the separators `,` and `:`
and with every character outside printable ASCII escaped. A value can be read
back from its text, so two values with one text are equal; `render_injective` is
what users of a digest of the text rely on.
-/

namespace SqlTide.Foundations

open List

inductive Json
  | null
  | bool (b : Bool)
  | int (n : Int)
  | str (s : String)
  | arr (items : List Json)
  | obj (fields : List (String × Json))
  deriving Repr

namespace Json

def hexDigit (n : ℕ) : Char := Nat.digitChar (n % 16)

def hexValue (c : Char) : ℕ := if c.isDigit then c.toNat - 48 else c.toNat - 87

theorem hexValue_hexDigit (n : ℕ) : hexValue (hexDigit n) = n % 16 := by
  have hall : ∀ d < 16, hexValue (Nat.digitChar d) = d := by decide
  exact hall _ (Nat.mod_lt n (by norm_num))

/-- `\uXXXX`, the code unit in four lower case hexadecimal digits. -/
def unicodeEscape (n : ℕ) : List Char :=
  ['\\', 'u', hexDigit (n / 4096), hexDigit (n / 256), hexDigit (n / 16), hexDigit n]

/-- The text of one character of a string. -/
def escapeChar (c : Char) : List Char :=
  if c = '\\' then ['\\', '\\']
  else if c = '"' then ['\\', '"']
  else if c = '\n' then ['\\', 'n']
  else if c = '\r' then ['\\', 'r']
  else if c = '\t' then ['\\', 't']
  else if c = '\x08' then ['\\', 'b']
  else if c = '\x0c' then ['\\', 'f']
  else if 32 ≤ c.toNat ∧ c.toNat ≤ 126 then [c]
  else if c.toNat < 65536 then unicodeEscape c.toNat
  else unicodeEscape (55296 + (c.toNat - 65536) / 1024) ++
    unicodeEscape (56320 + (c.toNat - 65536) % 1024)

def hexQuad (a b c d : Char) : ℕ :=
  hexValue a * 4096 + hexValue b * 256 + hexValue c * 16 + hexValue d

theorem hexQuad_hexDigit {n : ℕ} (h : n < 65536) :
    hexQuad (hexDigit (n / 4096)) (hexDigit (n / 256)) (hexDigit (n / 16)) (hexDigit n) = n := by
  simp only [hexQuad, hexValue_hexDigit]
  omega

/-- The first character that an escaped text stands for, and the rest of the text. -/
def readChar : List Char → Option (Char × List Char)
  | '\\' :: 'n' :: r => some ('\n', r)
  | '\\' :: 'r' :: r => some ('\r', r)
  | '\\' :: 't' :: r => some ('\t', r)
  | '\\' :: 'b' :: r => some ('\x08', r)
  | '\\' :: 'f' :: r => some ('\x0c', r)
  | '\\' :: 'u' :: a :: b :: c :: d :: r =>
    let high := hexQuad a b c d
    if 55296 ≤ high ∧ high < 56320 then
      match r with
      | '\\' :: 'u' :: e :: f :: g :: h :: r =>
        some (Char.ofNat (65536 + (high - 55296) * 1024 + (hexQuad e f g h - 56320)), r)
      | _ => none
    else some (Char.ofNat high, r)
  | '\\' :: c :: r => some (c, r)
  | '"' :: _ => none
  | c :: r => some (c, r)
  | [] => none

theorem readChar_unicodeEscape {n : ℕ} (h : n < 65536) (low : n < 55296 ∨ 56320 ≤ n)
    (r : List Char) : readChar (unicodeEscape n ++ r) = some (Char.ofNat n, r) := by
  have hlow : ¬ (55296 ≤ n ∧ n < 56320) := by omega
  simp only [unicodeEscape, cons_append, nil_append, readChar, hexQuad_hexDigit h]
  rw [if_neg hlow]

theorem readChar_surrogates {n : ℕ} (h : n < 1024) {m : ℕ} (hm : m < 1024) (r : List Char) :
    readChar (unicodeEscape (55296 + n) ++ (unicodeEscape (56320 + m) ++ r)) =
      some (Char.ofNat (65536 + n * 1024 + m), r) := by
  have hhigh : 55296 ≤ 55296 + n ∧ 55296 + n < 56320 := by omega
  simp only [unicodeEscape, cons_append, nil_append, readChar]
  rw [hexQuad_hexDigit (by omega), hexQuad_hexDigit (by omega), if_pos hhigh,
    Nat.add_sub_cancel_left, Nat.add_sub_cancel_left]

theorem readChar_plain {c : Char} (hslash : c ≠ '\\') (hquote : c ≠ '"') (r : List Char) :
    readChar (c :: r) = some (c, r) := by
  unfold readChar
  split <;> simp_all

/-- Every escape is read back as its character, whatever text follows. -/
theorem readChar_escapeChar (c : Char) (r : List Char) :
    readChar (escapeChar c ++ r) = some (c, r) := by
  unfold escapeChar
  split_ifs with h₁ h₂ h₃ h₄ h₅ h₆ h₇ hprint hbmp
  · subst h₁; rfl
  · subst h₂; rfl
  · subst h₃; rfl
  · subst h₄; rfl
  · subst h₅; rfl
  · subst h₆; rfl
  · subst h₇; rfl
  · exact readChar_plain h₁ h₂ r
  · have hvalid := c.valid
    rw [readChar_unicodeEscape hbmp _ r, Char.ofNat_toNat]
    rcases hvalid with hlow | hhigh
    · left
      exact hlow
    · right
      have := hhigh.1
      simp only [Char.toNat] at *
      omega
  · have hvalid : c.toNat < 1114112 := by
      rcases c.valid with hlow | hhigh
      · simp only [Char.toNat] at *
        omega
      · exact hhigh.2
    rw [append_assoc, readChar_surrogates (by omega) (by omega)]
    have hcode : 65536 + (c.toNat - 65536) / 1024 * 1024 + (c.toNat - 65536) % 1024 = c.toNat := by
      omega
    rw [hcode, Char.ofNat_toNat]

theorem escape_append_inj {cs ds r r' : List Char}
    (h : cs.flatMap escapeChar ++ '"' :: r = ds.flatMap escapeChar ++ '"' :: r') :
    cs = ds ∧ r = r' := by
  have hquote : ∀ t, readChar ('"' :: t) = none := fun _ => rfl
  induction cs generalizing ds with
  | nil =>
    cases ds with
    | nil => simpa using h
    | cons d ds =>
      have := congrArg readChar h
      simp [append_assoc, readChar_escapeChar, hquote] at this
  | cons c cs ih =>
    cases ds with
    | nil =>
      have := congrArg readChar h
      simp [append_assoc, readChar_escapeChar, hquote] at this
    | cons d ds =>
      have hread := congrArg readChar h
      simp only [flatMap_cons, append_assoc, readChar_escapeChar, Option.some.injEq,
        Prod.mk.injEq] at hread
      obtain ⟨rfl, hrest⟩ := hread
      obtain ⟨rfl, rfl⟩ := ih hrest
      exact ⟨rfl, rfl⟩

def quote (s : String) : List Char := '"' :: (s.toList.flatMap escapeChar ++ ['"'])

def renderInt : Int → List Char
  | .ofNat n => Nat.toDigits 10 n
  | .negSucc n => '-' :: Nat.toDigits 10 (n + 1)

mutual

def render : Json → List Char
  | .null => "null".toList
  | .bool true => "true".toList
  | .bool false => "false".toList
  | .int n => renderInt n
  | .str s => quote s
  | .arr items => '[' :: renderItems true items
  | .obj fields => '{' :: renderFields true fields

/-- The items from the given one on, with the closing bracket; the first item
has no separator before it. -/
def renderItems (first : Bool) : List Json → List Char
  | [] => [']']
  | v :: vs => (if first then [] else [',']) ++ (v.render ++ renderItems false vs)

def renderFields (first : Bool) : List (String × Json) → List Char
  | [] => ['}']
  | (k, v) :: fs =>
    (if first then [] else [',']) ++ (quote k ++ (':' :: (v.render ++ renderFields false fs)))

end

/-- The text `r` does not continue a number. -/
def EndsNumber (r : List Char) : Prop := ∀ c ∈ r.head?, c.isDigit = false

theorem endsNumber_renderItems (vs : List Json) (r : List Char) :
    EndsNumber (renderItems false vs ++ r) := by
  cases vs <;> simp [EndsNumber, renderItems]

theorem endsNumber_renderFields (fs : List (String × Json)) (r : List Char) :
    EndsNumber (renderFields false fs ++ r) := by
  cases fs <;> simp [EndsNumber, renderFields]

variable {r r' : List Char}

theorem takeWhile_digits_append {ds : List Char} (hds : ∀ c ∈ ds, c.isDigit) (hr : EndsNumber r) :
    (ds ++ r).takeWhile Char.isDigit = ds := by
  rw [takeWhile_append_of_pos hds]
  cases r with
  | nil => simp
  | cons c r =>
    have hc : c.isDigit = false := hr c (by simp)
    simp [hc]

theorem toDigits_append_inj {n m : ℕ} (hr : EndsNumber r) (hr' : EndsNumber r')
    (h : Nat.toDigits 10 n ++ r = Nat.toDigits 10 m ++ r') : n = m ∧ r = r' := by
  have hdigits : ∀ k, ∀ c ∈ Nat.toDigits 10 k, c.isDigit := fun k c hc =>
    Nat.isDigit_of_mem_toDigits (by norm_num) (by norm_num) hc
  have hsame : Nat.toDigits 10 n = Nat.toDigits 10 m := by
    rw [← takeWhile_digits_append (hdigits n) hr, h, takeWhile_digits_append (hdigits m) hr']
  constructor
  · have := congrArg (fun ds => Nat.ofDigitChars 10 ds 0) hsame
    simpa [Nat.ofDigitChars_ten_toDigits] using this
  · rw [hsame] at h
    exact append_cancel_left h

theorem exists_toDigits (n : ℕ) : ∃ d ds, Nat.toDigits 10 n = d :: ds ∧ d.isDigit = true := by
  cases hds : Nat.toDigits 10 n with
  | nil => exact absurd hds Nat.toDigits_ne_nil
  | cons d ds =>
    refine ⟨d, ds, rfl, ?_⟩
    apply Nat.isDigit_of_mem_toDigits (b := 10) (n := n) (by norm_num) (by norm_num)
    simp [hds]

theorem renderInt_append_inj {n m : Int} (hr : EndsNumber r)
    (hr' : EndsNumber r') (h : renderInt n ++ r = renderInt m ++ r') : n = m ∧ r = r' := by
  cases n with
  | ofNat n =>
    cases m with
    | ofNat m =>
      obtain ⟨rfl, rfl⟩ := toDigits_append_inj hr hr' h
      exact ⟨rfl, rfl⟩
    | negSucc m =>
      obtain ⟨d, ds, hds, hd⟩ := exists_toDigits n
      simp only [renderInt, hds, cons_append, List.cons.injEq] at h
      rw [h.1] at hd
      exact absurd hd (by decide)
  | negSucc n =>
    cases m with
    | ofNat m =>
      obtain ⟨d, ds, hds, hd⟩ := exists_toDigits m
      simp only [renderInt, hds, cons_append, List.cons.injEq] at h
      rw [← h.1] at hd
      exact absurd hd (by decide)
    | negSucc m =>
      simp only [renderInt, cons_append, List.cons.injEq, true_and] at h
      obtain ⟨hnm, rfl⟩ := toDigits_append_inj hr hr' h
      obtain rfl : n = m := by omega
      exact ⟨rfl, rfl⟩

theorem quote_append_inj {s t : String} (h : quote s ++ r = quote t ++ r') : s = t ∧ r = r' := by
  simp only [quote, cons_append, append_assoc, nil_append, List.cons.injEq, true_and] at h
  obtain ⟨hst, rfl⟩ := escape_append_inj h
  exact ⟨String.toList_injective hst, rfl⟩

/-- The constructor of a value, read off the first character of its text. -/
def kindOfText : List Char → ℕ
  | 'n' :: _ => 0
  | 't' :: _ | 'f' :: _ => 1
  | '"' :: _ => 3
  | '[' :: _ => 4
  | '{' :: _ => 5
  | ']' :: _ => 6
  | _ => 2

def kind : Json → ℕ
  | .null => 0
  | .bool _ => 1
  | .int _ => 2
  | .str _ => 3
  | .arr _ => 4
  | .obj _ => 5

theorem kindOfText_digit {d : Char} (hd : d.isDigit = true) (ds : List Char) :
    kindOfText (d :: ds) = 2 := by
  unfold kindOfText
  split <;> simp_all

theorem kindOfText_render (v : Json) (r : List Char) : kindOfText (v.render ++ r) = v.kind := by
  cases v with
  | null => rfl
  | bool b => cases b <;> rfl
  | int n =>
    cases n with
    | ofNat n =>
      obtain ⟨d, ds, hds, hd⟩ := exists_toDigits n
      simp only [render, renderInt, hds, cons_append, kind]
      exact kindOfText_digit hd _
    | negSucc n => rfl
  | str s => simp [render, quote, kindOfText, kind]
  | arr items => simp [render, kindOfText, kind]
  | obj fields => simp [render, kindOfText, kind]

theorem kind_eq_of_render {v w : Json} (h : v.render ++ r = w.render ++ r') : v.kind = w.kind := by
  rw [← kindOfText_render v r, h, kindOfText_render w r']

theorem render_ne_close (v : Json) (r r' : List Char) : v.render ++ r ≠ ']' :: r' := by
  intro h
  have hkind := congrArg kindOfText h
  rw [kindOfText_render] at hkind
  cases v <;> simp [kind, kindOfText] at hkind

mutual

theorem render_append_inj : ∀ (v w : Json) {r r' : List Char}, EndsNumber r → EndsNumber r' →
    v.render ++ r = w.render ++ r' → v = w ∧ r = r'
  | .null, w, r, r', _, _, h => by
    have hkind := kind_eq_of_render h
    cases w <;> simp only [kind] at hkind <;> try contradiction
    exact ⟨rfl, append_cancel_left h⟩
  | .bool b, w, r, r', _, _, h => by
    have hkind := kind_eq_of_render h
    cases w <;> simp only [kind] at hkind <;> try contradiction
    rename_i b'
    cases b <;> cases b' <;> simp_all [render]
  | .int n, w, r, r', hr, hr', h => by
    have hkind := kind_eq_of_render h
    cases w <;> simp only [kind] at hkind <;> try contradiction
    obtain ⟨rfl, rfl⟩ := renderInt_append_inj hr hr' h
    exact ⟨rfl, rfl⟩
  | .str s, w, r, r', _, _, h => by
    have hkind := kind_eq_of_render h
    cases w <;> simp only [kind] at hkind <;> try contradiction
    obtain ⟨rfl, rfl⟩ := quote_append_inj h
    exact ⟨rfl, rfl⟩
  | .arr items, w, r, r', _, _, h => by
    have hkind := kind_eq_of_render h
    cases w <;> simp only [kind] at hkind <;> try contradiction
    obtain ⟨rfl, rfl⟩ := renderItems_append_inj true items _ (List.cons.inj h).2
    exact ⟨rfl, rfl⟩
  | .obj fields, w, r, r', _, _, h => by
    have hkind := kind_eq_of_render h
    cases w <;> simp only [kind] at hkind <;> try contradiction
    obtain ⟨rfl, rfl⟩ := renderFields_append_inj true fields _ (List.cons.inj h).2
    exact ⟨rfl, rfl⟩

theorem renderItems_append_inj : ∀ (first : Bool) (vs ws : List Json) {r r' : List Char},
    renderItems first vs ++ r = renderItems first ws ++ r' → vs = ws ∧ r = r'
  | _, [], [], r, r', h => by simpa [renderItems] using h
  | true, [], w :: ws, r, r', h => by
    simp only [renderItems, ↓reduceIte, nil_append, append_assoc, cons_append] at h
    exact absurd h.symm (render_ne_close w _ _)
  | true, v :: vs, [], r, r', h => by
    simp only [renderItems, ↓reduceIte, nil_append, append_assoc, cons_append] at h
    exact absurd h (render_ne_close v _ _)
  | false, [], w :: ws, r, r', h => by simp [renderItems] at h
  | false, v :: vs, [], r, r', h => by simp [renderItems] at h
  | first, v :: vs, w :: ws, r, r', h => by
    simp only [renderItems, append_assoc, append_cancel_left_eq] at h
    obtain ⟨rfl, hrest⟩ := render_append_inj v w (endsNumber_renderItems vs r)
      (endsNumber_renderItems ws r') h
    obtain ⟨rfl, rfl⟩ := renderItems_append_inj false vs ws hrest
    exact ⟨rfl, rfl⟩

theorem renderFields_append_inj : ∀ (first : Bool) (fs gs : List (String × Json))
    {r r' : List Char},
    renderFields first fs ++ r = renderFields first gs ++ r' → fs = gs ∧ r = r'
  | _, [], [], r, r', h => by simpa [renderFields] using h
  | true, [], (k, w) :: gs, r, r', h => by simp [renderFields, quote] at h
  | true, (k, v) :: fs, [], r, r', h => by simp [renderFields, quote] at h
  | false, [], (k, w) :: gs, r, r', h => by simp [renderFields] at h
  | false, (k, v) :: fs, [], r, r', h => by simp [renderFields] at h
  | first, (k, v) :: fs, (l, w) :: gs, r, r', h => by
    simp only [renderFields, append_assoc, append_cancel_left_eq, cons_append] at h
    obtain ⟨rfl, hvalue⟩ := quote_append_inj h
    obtain ⟨rfl, hrest⟩ := render_append_inj v w (endsNumber_renderFields fs r)
      (endsNumber_renderFields gs r') (List.cons.inj hvalue).2
    obtain ⟨rfl, rfl⟩ := renderFields_append_inj false fs gs hrest
    exact ⟨rfl, rfl⟩

end

theorem render_injective : Function.Injective render := by
  intro v w h
  have hnil : EndsNumber [] := by simp [EndsNumber]
  exact (render_append_inj v w hnil hnil (by simpa using h)).1

instance : DecidableEq Json := fun v w =>
  decidable_of_iff (v.render = w.render) render_injective.eq_iff

/-- The value of a field, the first one of that name. -/
def field? (fields : List (String × Json)) (name : String) : Option Json :=
  (fields.find? fun f => f.1 = name).map Prod.snd

end Json

end SqlTide.Foundations
