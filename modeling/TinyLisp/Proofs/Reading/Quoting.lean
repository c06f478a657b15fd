import TinyLisp.Proofs.Reading.Joined

/-!
# Quoted strings delimit themselves

A quoted string is one token whatever follows it, and what follows is scanned and read as it would
be by itself. So nothing in the string can end it early or take in what comes after it.
-/

namespace TinyLisp

open Grammar

namespace Text

/-- A quoted string as a token at the start of a text. -/
def quoteToken (text : List Char) : Token := ⟨.string, quote text, some 0⟩

theorem covers_quote (text rest : List Char) : Covers (quote text) [quoteToken text] rest := by
  have lexeme : Lexeme .string (quote text) rest :=
    .string (enclosed_flatMap_escape text) rest
  exact (Covers.start (quote text ++ rest)).token lexeme

theorem form_quoteToken (text : List Char) :
    Forms [quoteToken text] [.string (String.ofList text)] := by
  rw [← stringContents_quote]
  exact (Form.string rfl).forms

theorem unescape_contents_quote (text : List Char) :
    unescape ((quote text).drop 1).dropLast = text := by
  simp [quote, unescape_flatMap_escape]

end Text

/-- A text that begins with a quoted string has this string as its first token, and then the tokens
of what follows, or its unfinished string, each as far on as the quoted string is long. Without its
quotes the token means the string again; so the text reads as the string and then as what follows
does. -/
theorem scan_quote (text rest : List Char) :
    scan (Text.quote text ++ rest) =
        ⟨⟨.string, Text.quote text, some 0⟩ ::
            (scan rest).tokens.map (Token.movedBy (Text.quote text).length),
          (scan rest).unterminated.map (· + (Text.quote text).length)⟩ ∧
      Text.unescape ((Text.quote text).drop 1).dropLast = text ∧
      readForms (Text.quote text ++ rest) =
        ((readForms rest).map (.string (String.ofList text) :: ·)).mapError
          (ReadFault.movedBy (Text.quote text).length) :=
  ⟨scan_append (Text.covers_quote text) rest, Text.unescape_contents_quote text,
    readForms_append (Text.covers_quote text) (Text.form_quoteToken text) rest⟩

example : scan (Text.quote ['\\', '"', ';'] ++ ['"']) =
    ⟨[⟨.string, ['"', '\\', '\\', '\\', '"', ';', '"'], some 0⟩], some 7⟩ :=
  rfl

end TinyLisp
