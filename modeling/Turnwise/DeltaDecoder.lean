import Turnwise.Backend
import Turnwise.Text.Utf8

/-!
# Incremental decoding

Turns the tokens of a generation into text as they come. A character may be spread over several
tokens, so tokens whose text ends in a replacement character are held back until a later one
completes it, but never more than four of them.

A token whose text cannot be found out stays held.
-/

namespace Turnwise

/-- How many tokens may be held back at most. -/
def maxHeldTokens : Nat := 4

/-- The tokens of one generation whose text is not out yet. -/
structure DeltaDecoder where
  held : List Token := []
  deriving DecidableEq, Repr, Inhabited

namespace DeltaDecoder

/-- Whether a text may end in the middle of a character. -/
def endsIncomplete (text : String) : Bool := text.toList.getLast? == some Utf8.replacement

def nonempty (text : String) : Option String := if text.isEmpty then none else some text

/-- Adds a token, and gives the text that it completes. -/
def push (detokenize : List Token → Except Error String) (decoder : DeltaDecoder) (token : Token) :
    DeltaDecoder × Except Error (Option String) :=
  let held := decoder.held ++ [token]
  match detokenize held with
  | .error e => ({ held }, .error e)
  | .ok text =>
      if endsIncomplete text && held.length < maxHeldTokens then ({ held }, .ok none)
      else ({}, .ok (nonempty text))

/-- Gives the text of the tokens that are still held. -/
def flush (detokenize : List Token → Except Error String) (decoder : DeltaDecoder) :
    DeltaDecoder × Except Error (Option String) :=
  if decoder.held.isEmpty then (decoder, .ok none)
  else
    match detokenize decoder.held with
    | .error e => (decoder, .error e)
    | .ok text => ({}, .ok (nonempty text))

end DeltaDecoder

end Turnwise
