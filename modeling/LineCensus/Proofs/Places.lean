import LineCensus.Script.Comments
import Mathlib

/-!
What a walk over the tree of a script comes by: nodes, and the tokens in the gaps between them. It
neither comes by documentation nor looks into it, and text between markup tags counts as such.
-/

namespace LineCensus.Script

set_option autoImplicit false

/-- Induction over a node and everything in it. -/
theorem Node.induction {motive : Node → Prop}
    (node : ∀ role label start stop children, (∀ child ∈ children, motive child) →
      motive (.mk role label start stop children)) : ∀ tree, motive tree
  | .mk role label start stop children =>
      node role label start stop children fun child member =>
        have smaller : sizeOf child < sizeOf (Node.mk role label start stop children) := by
          have inList := List.sizeOf_lt_of_mem member
          rw [mk.sizeOf_spec]
          omega
        induction node child
termination_by tree => sizeOf tree

def Label.isShown : Label → Bool
  | .token word => word != .jsxText
  | .identifier _ | .list _ => true
  | .form shape _ => !shape.isDocumentation

def Label.isEntered : Label → Bool
  | .token _ | .identifier _ => false
  | .list _ => true
  | .form shape _ => !shape.isDocumentation

theorem Label.shown_of_entered (label : Label) (entered : label.isEntered = true) :
    label.isShown = true := by
  cases label with
  | token word => cases entered
  | identifier name => rfl
  | list present => rfl
  | form shape mark => exact entered

/-- The gaps that some nodes leave in the text from one position to another. -/
def gaps (position stop : Nat) : List Node → List (Nat × Nat)
  | [] => [(position, stop)]
  | node :: rest => (position, node.start) :: gaps node.stop stop rest

/-- Whether a walk over a node comes by a place. -/
inductive Node.ComesBy (source : Source) (dialect : Dialect) : Node → Place → Prop where
  | itself {role : Role} {label : Label} {start stop : Nat} {children : List Node}
      (shown : label.isShown = true) :
      ComesBy source dialect (.mk role label start stop children) (.node start stop)
  | markupText {role : Role} {start stop : Nat} {children : List Node} :
      ComesBy source dialect (.mk role (.token .jsxText) start stop children)
        (.markupText start stop)
  | child {role : Role} {label : Label} {start stop : Nat} {children : List Node} {node : Node}
      {place : Place} (entered : label.isEntered = true) (member : node ∈ children)
      (inside : ComesBy source dialect node place) :
      ComesBy source dialect (.mk role label start stop children) place
  | token {role : Role} {label : Label} {start stop : Nat} {children : List Node}
      {gap : Nat × Nat} {tokens : List Place} {place : Place} (entered : label.isEntered = true)
      (between : gap ∈ gaps start stop children)
      (read : gapTokens source dialect gap.1 gap.2 = some tokens) (member : place ∈ tokens) :
      ComesBy source dialect (.mk role label start stop children) place

section

variable (source : Source) (dialect : Dialect)

theorem places_in_cons (position stop : Nat) (node : Node) (rest : List Node)
    (places : List Place)
    (fits : placesIn source dialect position stop (node :: rest) = some places) :
    ∃ before inside after, gapTokens source dialect position node.start = some before ∧
      node.places source dialect = some inside ∧
      placesIn source dialect node.stop stop rest = some after ∧
      places = before ++ inside ++ after := by
  rw [placesIn] at fits
  by_cases placed : node.isPlaced = true
  · simp only [placed, Bool.not_true, Bool.false_eq_true, if_false, bind, Option.bind_eq_some_iff]
      at fits
    obtain ⟨before, readBefore, inside, readInside, after, readAfter, same⟩ := fits
    exact ⟨before, inside, after, readBefore, readInside, readAfter, (Option.some.inj same).symm⟩
  · simp [placed] at fits

theorem places_of_child (position stop : Nat) (nodes : List Node) (places : List Place)
    (fits : placesIn source dialect position stop nodes = some places) (node : Node)
    (member : node ∈ nodes) : ∃ inner, node.places source dialect = some inner := by
  induction nodes generalizing position places with
  | nil => cases member
  | cons first rest ih =>
      obtain ⟨before, inside, after, -, readInside, readAfter, -⟩ :=
        places_in_cons source dialect position stop first rest places fits
      rcases List.mem_cons.mp member with rfl | inRest
      · exact ⟨inside, readInside⟩
      · exact ih _ after readAfter inRest

/-- The places in some nodes are those in each of them and those in the gaps between them. -/
theorem mem_places_in_iff (position stop : Nat) (nodes : List Node) (places : List Place)
    (fits : placesIn source dialect position stop nodes = some places) (place : Place) :
    place ∈ places ↔
      (∃ node ∈ nodes, ∃ inner, node.places source dialect = some inner ∧ place ∈ inner) ∨
        ∃ gap ∈ gaps position stop nodes, ∃ tokens,
          gapTokens source dialect gap.1 gap.2 = some tokens ∧ place ∈ tokens := by
  induction nodes generalizing position places with
  | nil =>
      rw [placesIn] at fits
      simp [gaps, fits]
  | cons node rest ih =>
      obtain ⟨before, inside, after, readBefore, readInside, readAfter, rfl⟩ :=
        places_in_cons source dialect position stop node rest places fits
      rw [List.mem_append, List.mem_append, ih _ after readAfter, gaps]
      simp only [List.mem_cons, exists_eq_or_imp, readBefore, readInside, Option.some.injEq,
        exists_eq_left']
      constructor
      · rintro ((inGap | inNode) | (inRest | inGaps))
        · exact .inr (.inl inGap)
        · exact .inl (.inl inNode)
        · exact .inl (.inr inRest)
        · exact .inr (.inr inGaps)
      · rintro ((inNode | inRest) | (inGap | inGaps))
        · exact .inl (.inr inNode)
        · exact .inr (.inl inRest)
        · exact .inl (.inl inGap)
        · exact .inr (.inr inGaps)

variable (role : Role) (label : Label) (start stop : Nat) (children : List Node)

theorem places_of_entered (entered : label.isEntered = true) :
    (Node.mk role label start stop children).places source dialect =
      (placesIn source dialect start stop children).map (.node start stop :: ·) := by
  cases label with
  | token word => cases entered
  | identifier name => cases entered
  | list present => rw [Node.places]
  | form shape mark =>
      have shown : shape.isDocumentation = false := by simpa [Label.isEntered] using entered
      rw [Node.places, shown]
      rfl

theorem places_of_closed (closed : label.isEntered = false) :
    (Node.mk role label start stop children).places source dialect =
      some (if label = .token .jsxText then [.markupText start stop]
        else if label.isShown then [.node start stop] else []) := by
  cases label with
  | token word =>
      by_cases markup : word = .jsxText
      · rw [markup, Node.places]
        rfl
      · rw [Node.places]
        · simp [Label.isShown, markup]
        · exact markup
  | identifier name =>
      rw [Node.places]
      rfl
  | list present => cases closed
  | form shape mark =>
      have hidden : shape.isDocumentation = true := by simpa [Label.isEntered] using closed
      rw [Node.places, hidden]
      simp [Label.isShown, hidden]

/-- A tree that fits the text has the places that a walk comes by. -/
theorem mem_places_iff (tree : Node) (places : List Place)
    (fits : tree.places source dialect = some places) (place : Place) :
    place ∈ places ↔ tree.ComesBy source dialect place := by
  induction tree using Node.induction generalizing places with
  | node role label start stop children ih =>
      by_cases entered : label.isEntered = true
      · rw [places_of_entered source dialect role label start stop children entered,
          Option.map_eq_some_iff] at fits
        obtain ⟨inner, fitsInner, rfl⟩ := fits
        have shown := Label.shown_of_entered label entered
        rw [List.mem_cons, mem_places_in_iff source dialect start stop children inner fitsInner]
        constructor
        · rintro (rfl | ⟨node, member, inside, readInside, there⟩ |
            ⟨gap, between, tokens, read, there⟩)
          · exact .itself shown
          · exact .child entered member ((ih node member inside readInside).mp there)
          · exact .token entered between read there
        · intro comes
          cases comes with
          | itself _ => exact .inl rfl
          | markupText => cases entered
          | child _ member inside =>
              obtain ⟨places, readPlaces⟩ :=
                places_of_child source dialect start stop children inner fitsInner _ member
              exact .inr (.inl ⟨_, member, places, readPlaces,
                (ih _ member places readPlaces).mpr inside⟩)
          | token _ between read there => exact .inr (.inr ⟨_, between, _, read, there⟩)
      · rw [places_of_closed source dialect role label start stop children (by simpa using entered),
          Option.some.injEq] at fits
        rw [← fits]
        constructor
        · intro there
          split at there
          · rename_i markup
            subst markup
            rw [List.mem_singleton] at there
            rw [there]
            exact .markupText
          · split at there
            · rename_i shown
              rw [List.mem_singleton] at there
              rw [there]
              exact .itself shown
            · cases there
        · intro comes
          cases comes with
          | itself shown =>
              have noMarkup : label ≠ .token .jsxText := by
                rintro rfl
                cases shown
              rw [if_neg noMarkup, if_pos shown]
              exact List.mem_singleton_self _
          | markupText => simp
          | child entering => exact absurd entering entered
          | token entering => exact absurd entering entered

end

end LineCensus.Script
