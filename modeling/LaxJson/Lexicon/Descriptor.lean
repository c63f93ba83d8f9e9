import LaxJson.Token

/-!
# Descriptors

A descriptor knows one class of tokens. It is asked whether a token can begin with a
character, and then, character by character, whether the token at hand goes on; when the
token has ended it tells what the token is. A descriptor is a state machine, and what it
remembers from one token to the next is its own business.
-/
namespace LaxJson

/-- A state machine that recognizes the tokens of one class. `init` begins a new input.
`start` tells whether a token can begin with the character and `extend` whether the token
at hand goes on with it, each with the descriptor after that question. -/
class Descriptor (R : Type) where
  init : R → R
  start : R → Char → Bool × R
  extend : R → Char → Bool × R
  isComplete : R → Bool
  role : R → Role
  category : R → Category

/-- Either of two descriptors. -/
instance {R S : Type} [Descriptor R] [Descriptor S] : Descriptor (R ⊕ S) where
  init
    | .inl r => .inl (Descriptor.init r)
    | .inr s => .inr (Descriptor.init s)
  start
    | .inl r, c => let (b, r) := Descriptor.start r c; (b, .inl r)
    | .inr s, c => let (b, s) := Descriptor.start s c; (b, .inr s)
  extend
    | .inl r, c => let (b, r) := Descriptor.extend r c; (b, .inl r)
    | .inr s, c => let (b, s) := Descriptor.extend s c; (b, .inr s)
  isComplete
    | .inl r => Descriptor.isComplete r
    | .inr s => Descriptor.isComplete s
  role
    | .inl r => Descriptor.role r
    | .inr s => Descriptor.role s
  category
    | .inl r => Descriptor.category r
    | .inr s => Descriptor.category s

end LaxJson
