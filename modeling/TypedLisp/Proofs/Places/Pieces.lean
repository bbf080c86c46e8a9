import TypedLisp.Proofs.Grafting.Paths

/-! The pieces of a text that nodes cover.

A node is on the line of the first token of its piece. What a list of parameters or
arguments covers are its items, so the parenthesis that closes the parameters does
not count for the body that it is written with, and an empty list has no token of its
own: the one next to it is taken.
-/

set_option autoImplicit false

namespace TypedLisp

/-! ## Pieces -/

namespace Node

/-- What is written with a node but belongs to the form around it. -/
def skipped (node : Node) : List String :=
  if node.kind = .body then [")"] else []

def covered (node : Node) : List String :=
  if node.kind = .body then lexemesAll node.children else node.lexemes

/-- Between the tokens before it and those after it, the token that a node has its line from. Before
the node stands what is written as `before`. -/
inductive StartsAt (node : Node) (before : List String) : List Token → Token → List Token → Prop
  | covers {lead rest trail : List Token} {token : Token} :
      lead.map Token.written = before ++ node.skipped →
      (token :: rest).map Token.written = node.covered →
      StartsAt node before lead token (rest ++ trail)
  /-- No parameters are on the line of the parenthesis that has been opened for them. -/
  | noParameters {lead trail : List Token} {token : Token} :
      node.kind = .parameterList → node.children = [] → token.kind = .leftParen →
      (lead ++ [token]).map Token.written = before → StartsAt node before lead token trail
  /-- No arguments are on the line of the parenthesis that closes the call. -/
  | noArguments {lead trail : List Token} {token : Token} :
      node.kind = .argumentList → node.children = [] → token.kind = .rightParen →
      lead.map Token.written = before → StartsAt node before lead token trail

end Node

def HasLine (tokens : List Token) (before : List String) (node : Node) : Prop :=
  ∃ lead token trail, tokens = lead ++ token :: trail ∧ node.StartsAt before lead token trail ∧
    token.line = node.line

/-- All nodes of a tree are on their lines, if `before` is written before the tree. -/
def Anchored (tokens : List Token) (before : List String) (tree : Node) : Prop :=
  ∀ path node, tree.descend? path = some node → HasLine tokens (before ++ tree.lexemesBefore path) node

def AllAnchored (tokens : List Token) (before : List String) (nodes : List Node) : Prop :=
  ∀ index child, nodes[index]? = some child →
    Anchored tokens (before ++ Node.lexemesAll (nodes.take index)) child

section
variable {tokens : List Token} {before : List String} {node : Node} {nodes : List Node}

theorem AllAnchored.nil : AllAnchored tokens before [] :=
  fun _ _ listed => by simp at listed

theorem AllAnchored.cons (first : Anchored tokens before node)
    (others : AllAnchored tokens (before ++ node.lexemes) nodes) :
    AllAnchored tokens before (node :: nodes) := by
  intro index child listed
  cases index with
  | zero =>
    cases listed
    simpa using first
  | succ index =>
    have anchored := others index child listed
    rwa [List.append_assoc] at anchored

-- What is written before a child is what is written before its parent, the opening and the elder siblings.
theorem Anchored.of_children (own : HasLine tokens before node)
    (below : AllAnchored tokens (before ++ node.kind.opening node.leaves) node.children) :
    Anchored tokens before node := by
  intro path found reached
  cases path with
  | nil =>
    cases reached
    simpa [Node.lexemesBefore] using own
  | cons index path =>
    obtain ⟨child, listed, reached⟩ := Node.descend?_cons_eq_some_iff.mp reached
    have anchored := below index child listed path found reached
    have written : node.lexemesBefore (index :: path) = node.kind.opening node.leaves ++
        (Node.lexemesAll (node.children.take index) ++ child.lexemesBefore path) := by
      rw [Node.lexemesBefore, listed]
      rfl
    rw [written]
    simpa only [List.append_assoc] using anchored

end

/-! ## Order -/

/-- Lines of tokens in their order. A token may give several lines or none. -/
inductive Draws : List Token → List Nat → Prop
  | nil {tokens : List Token} : Draws tokens []
  | skip {token : Token} {tokens : List Token} {lines : List Nat} : Draws tokens lines →
      Draws (token :: tokens) lines
  | take {token : Token} {tokens : List Token} {lines : List Nat} : Draws (token :: tokens) lines →
      Draws (token :: tokens) (token.line :: lines)

section
variable {tokens more : List Token} {lines others : List Nat}

theorem Draws.append_left (draws : Draws more others) (tokens : List Token) :
    Draws (tokens ++ more) others := by
  induction tokens with
  | nil => exact draws
  | cons token tokens ih => exact .skip ih

theorem Draws.append (draws : Draws tokens lines) (draws' : Draws more others) :
    Draws (tokens ++ more) (lines ++ others) := by
  induction draws with
  | nil => exact draws'.append_left _
  | skip _ ih => exact .skip ih
  | take _ ih => exact .take ih

theorem Draws.append_right (draws : Draws tokens lines) (more : List Token) :
    Draws (tokens ++ more) lines :=
  List.append_nil lines ▸ draws.append .nil

theorem Draws.mem {line : Nat} (draws : Draws tokens lines) (member : line ∈ lines) :
    line ∈ tokens.map Token.line := by
  induction draws with
  | nil => cases member
  | skip _ ih => exact List.mem_cons_of_mem _ (ih member)
  | take _ ih =>
    rcases List.mem_cons.mp member with rfl | member
    · exact List.mem_cons_self
    · exact ih member

theorem Draws.rise (draws : Draws tokens lines) (rise : (tokens.map Token.line).Pairwise (· ≤ ·)) :
    lines.Pairwise (· ≤ ·) := by
  induction draws with
  | nil => exact .nil
  | skip _ ih => exact ih (List.pairwise_cons.mp rise).2
  | @take token tokens lines draws ih =>
    refine List.pairwise_cons.mpr ⟨fun line member => ?_, ih rise⟩
    rcases List.mem_cons.mp (draws.mem member) with rfl | later
    · exact Nat.le_refl _
    · exact (List.pairwise_cons.mp rise).1 line later

end

end TypedLisp
