import StaticSemantics.Rendering.SignatureText
import StaticSemantics.SymbolTable.Initial

/-!
Text literals can be read back. Reading goes from the opening quote to the first quote that is not
one of a pair; what follows it tells a character from a text. It accepts exactly the texts that
strings and characters are written as, so no two of them are written alike.
-/

namespace StaticSemantics

/-- What stands between the quotes: every quote twice. -/
def doubleQuotes (s : List Char) : List Char :=
  s.flatMap fun c => if c = '"' then ['"', '"'] else [c]

/-- Reads on after an opening quote, up to the closing one: the text, and what comes after it. -/
def unquote : List Char → Option (List Char × List Char)
  | [] => none
  | '"' :: '"' :: rest => (unquote rest).map fun (s, after) => ('"' :: s, after)
  | '"' :: rest => some ([], rest)
  | c :: rest => (unquote rest).map fun (s, after) => (c :: s, after)

/-- The constant that a text literal stands for. -/
def readLiteral (text : String) : Option Constant :=
  match text.toList with
  | '"' :: rest =>
    match unquote rest with
    | some (s, []) => some (.string (String.ofList s))
    | some ([c], ['c']) => some (.char c)
    | _ => none
  | _ => none

/-- The constants that are written as text literals. -/
def Constant.isText : Constant → Bool
  | string _ | char _ => true
  | _ => false

/-! ## Between the quotes -/

section

variable {c : Char} {s rest after : List Char}

theorem doubleQuotes_cons_quote (s : List Char) :
    doubleQuotes ('"' :: s) = '"' :: '"' :: doubleQuotes s := rfl

theorem doubleQuotes_cons (h : c ≠ '"') (s : List Char) :
    doubleQuotes (c :: s) = c :: doubleQuotes s := by
  simp [doubleQuotes, h]

theorem unquote_cons_of_ne (h : c ≠ '"') (rest : List Char) :
    unquote (c :: rest) = (unquote rest).map fun (s, after) => (c :: s, after) := by
  rw [unquote]
  · rintro _ rfl
    exact absurd rfl h
  · exact h

theorem unquote_closing (h : after.head? ≠ some '"') :
    unquote ('"' :: after) = some ([], after) := by
  rw [unquote]
  rintro rest rfl
  exact h rfl

/-- The quote that closes a text is not followed by another one. -/
theorem unquote_doubleQuotes (h : after.head? ≠ some '"') (s : List Char) :
    unquote (doubleQuotes s ++ '"' :: after) = some (s, after) := by
  induction s with
  | nil => exact unquote_closing h
  | cons c s ih =>
      by_cases hc : c = '"'
      · subst hc
        rw [doubleQuotes_cons_quote, List.cons_append, List.cons_append, unquote, ih]
        rfl
      · rw [doubleQuotes_cons hc, List.cons_append, unquote_cons_of_ne hc, ih]
        rfl

theorem eq_of_unquote (h : unquote rest = some (s, after)) :
    rest = doubleQuotes s ++ '"' :: after := by
  fun_induction unquote rest generalizing s with
  | case1 => cases h
  | case2 rest ih =>
      obtain ⟨⟨s', after'⟩, hr, he⟩ := Option.map_eq_some_iff.mp h
      cases he
      rw [doubleQuotes_cons_quote, List.cons_append, List.cons_append, ← ih hr]
  | case3 rest _ =>
      cases h
      rfl
  | case4 c rest _ hc ih =>
      obtain ⟨⟨s', after'⟩, hr, he⟩ := Option.map_eq_some_iff.mp h
      cases he
      rw [doubleQuotes_cons hc, List.cons_append, ← ih hr]

end

/-! ## Literals -/

theorem toList_quoted (s : String) :
    (quoted s).toList = '"' :: (doubleQuotes s.toList ++ ['"']) := by
  simp [quoted, doubleQuotes]

theorem readLiteral_string (s : String) : readLiteral (quoted s) = some (.string s) := by
  have hs : unquote (doubleQuotes s.toList ++ ['"']) = some (s.toList, []) :=
    unquote_doubleQuotes (by simp) s.toList
  simp [readLiteral, toList_quoted, hs]

theorem readLiteral_char (c : Char) :
    readLiteral (quoted c.toString ++ "c") = some (.char c) := by
  have hc : unquote (doubleQuotes [c] ++ '"' :: ['c']) = some ([c], ['c']) :=
    unquote_doubleQuotes (by simp) [c]
  have htext : (quoted c.toString ++ "c").toList = '"' :: (doubleQuotes [c] ++ '"' :: ['c']) := by
    simp [toList_quoted]
  simp only [readLiteral, htext, hc]

/-- Only a literal is read as a string or character. -/
theorem cases_of_readLiteral {text : String} {k : Constant} (h : readLiteral text = some k) :
    (∃ s, k = .string s ∧ text = quoted s) ∨
      ∃ c, k = .char c ∧ text = quoted c.toString ++ "c" := by
  unfold readLiteral at h
  split at h
  · rename_i rest htext
    split at h
    · rename_i s hs
      cases h
      refine .inl ⟨_, rfl, String.toList_inj.mp ?_⟩
      rw [htext, toList_quoted, String.toList_ofList, eq_of_unquote hs]
    · rename_i c hc
      cases h
      refine .inr ⟨c, rfl, String.toList_inj.mp ?_⟩
      rw [htext, eq_of_unquote hc]
      simp [toList_quoted]
    · cases h
  · cases h

namespace SymbolTable

variable (w : SymbolTable) (t : TypeId)

theorem readLiteral_valueText {k : Constant} (hk : k.isText) :
    readLiteral (w.valueText (.constant k t)) = some k := by
  cases k with
  | string s => exact readLiteral_string s
  | char c => exact readLiteral_char c
  | _ => cases hk

/-- Reading undoes the writing of strings and characters, and accepts nothing else. The texts of
two strings or characters, at whatever types and beside whatever declarations, are the same only if
the constants are. -/
theorem textLiterals_decodable :
    (∀ s, readLiteral (w.valueText (.constant (.string s) t)) = some (.string s)) ∧
    (∀ c, readLiteral (w.valueText (.constant (.char c) t)) = some (.char c)) ∧
    (∀ text k, readLiteral text = some k ↔ k.isText ∧ w.valueText (.constant k t) = text) ∧
    ∀ k k' : Constant, k.isText → k'.isText → ∀ (w' : SymbolTable) (t' : TypeId),
      (w.valueText (.constant k t) = w'.valueText (.constant k' t') ↔ k = k') := by
  refine ⟨readLiteral_string, readLiteral_char, fun text k => ⟨fun h => ?_, ?_⟩,
    fun k k' hk hk' w' t' => ⟨fun h => ?_, ?_⟩⟩
  · rcases cases_of_readLiteral h with ⟨s, rfl, rfl⟩ | ⟨c, rfl, rfl⟩
    · exact ⟨rfl, rfl⟩
    · exact ⟨rfl, rfl⟩
  · rintro ⟨hk, rfl⟩
    exact w.readLiteral_valueText t hk
  · have hread := w.readLiteral_valueText t hk
    rw [h, w'.readLiteral_valueText t' hk'] at hread
    exact (Option.some.inj hread).symm
  · rintro rfl
    cases k with
    | string s => rfl
    | char c => rfl
    | _ => cases hk

/-- The character `"` is written like the string `"` with a `c` after it, and unlike the string
`"c`. -/
theorem textLiterals_quote :
    (initial .counting).valueText (.ofChar '"') = "\"\"\"\"c" ∧
      (initial .counting).valueText (.ofString "\"c") = "\"\"\"c\"" ∧
      (initial .counting).valueText (.ofChar '"') ≠
        (initial .counting).valueText (.ofString "\"c") := by
  have distinct := ((initial .counting).textLiterals_decodable .char).2.2.2 (.char '"')
    (.string "\"c") rfl rfl
  refine ⟨by decide +kernel, by decide +kernel, fun h => ?_⟩
  exact absurd ((distinct (initial .counting) .string).mp h) (by simp)

end SymbolTable
end StaticSemantics
