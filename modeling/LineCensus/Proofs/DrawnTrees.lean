import LineCensus.Proofs.Sorting
import LineCensus.Report.TreeDrawing
import Mathlib

/-!
A drawn tree tells which tree it is. Labels and further lines may look like connectors and rails
themselves; but every line of a drawing is read from its left end, where what the nodes above it put in
front stands, and there a connector cannot be taken for a rail. So the further lines of a node end where
its first child begins, and what is below a child ends where the next one begins.
-/

namespace LineCensus.Report.Branch

set_option autoImplicit false

/-- Induction over a node and all nodes below it. -/
theorem induction {motive : Branch → Prop}
    (node : ∀ label details children, (∀ child ∈ children, motive child) →
      motive (mk label details children)) : ∀ root, motive root
  | mk label details children =>
      node label details children fun child member =>
        have smaller : sizeOf child < sizeOf (mk label details children) := by
          have inList := List.sizeOf_lt_of_mem member
          rw [mk.sizeOf_spec]
          omega
        induction node child
termination_by root => sizeOf root

inductive OnLines : Branch → Prop
  | mk {label : String} {details : List String} {children : List Branch}
      (label_free : '\n' ∉ label.toList) (details_free : ∀ detail ∈ details, '\n' ∉ detail.toList)
      (below : ∀ child ∈ children, child.OnLines) : OnLines (mk label details children)

/-! ### Lines -/

/-- Lines as a text in which each ends with a line feed. -/
def written (lines : List (List Char)) : List Char := lines.flatMap (· ++ ['\n'])

def FreeOfFeeds (lines : List (List Char)) : Prop := ∀ line ∈ lines, '\n' ∉ line

theorem written_append (first second : List (List Char)) :
    written (first ++ second) = written first ++ written second :=
  List.flatMap_append

theorem written_cons (line : List Char) (rest : List (List Char)) :
    written (line :: rest) = line ++ '\n' :: written rest := by
  rw [written, List.flatMap_cons, List.append_assoc]
  rfl

theorem written_injective {lines others : List (List Char)} (free : FreeOfFeeds lines)
    (othersFree : FreeOfFeeds others) (same : written lines = written others) : lines = others := by
  have inLine {lines : List (List Char)} (free : FreeOfFeeds lines) {line : List Char}
      (member : line ∈ lines) : ∀ c ∈ line, (c != '\n') = true := by
    intro c inside
    exact bne_iff_ne.mpr fun isFeed => free line member (isFeed ▸ inside)
  have atFeed {rest : List Char} : ∀ c, ('\n' :: rest).head? = some c → (c != '\n') = false := by
    rintro c ⟨⟩
    rfl
  induction lines generalizing others with
  | nil =>
      cases others with
      | nil => rfl
      | cons other others => simp [written] at same
  | cons line rest ih =>
      cases others with
      | nil => simp [written] at same
      | cons other others =>
          rw [written_cons, written_cons] at same
          obtain ⟨rfl, feeds⟩ := cut_unique same (inLine free List.mem_cons_self) atFeed
            (inLine othersFree List.mem_cons_self) atFeed
          have later := ih (fun next member => free next (List.mem_cons_of_mem _ member))
            (fun next member => othersFree next (List.mem_cons_of_mem _ member))
            (List.cons.inj feeds).2
          rw [later]

/-! ### Lines of a drawing -/

def railed (hasChildren : Bool) (details : List String) : List (List Char) :=
  details.map fun detail => (detailRail hasChildren).toList ++ detail.toList

mutual

/-- The lines of a node below another, without what the nodes above it put in front of them. -/
def linesBelow (isLast : Bool) : Branch → List (List Char)
  | mk label details children =>
    ((connector isLast).toList ++ label.toList) ::
      (railed (!children.isEmpty) details ++ linesOfChildren children).map ((rail isLast).toList ++ ·)

def linesOfChildren : List Branch → List (List Char)
  | [] => []
  | child :: rest => linesBelow rest.isEmpty child ++ linesOfChildren rest

end

def label : Branch → String
  | mk label _ _ => label

def linesInside : Branch → List (List Char)
  | mk _ details children => railed (!children.isEmpty) details ++ linesOfChildren children

theorem lines_below_eq (isLast : Bool) (root : Branch) :
    linesBelow isLast root = ((connector isLast).toList ++ root.label.toList) ::
      root.linesInside.map ((rail isLast).toList ++ ·) := by
  cases root
  rfl

theorem detail_lines_eq (lead : String) (details : List String) (hasChildren : Bool) :
    (detailLines lead details hasChildren).toList =
      written ((railed hasChildren details).map (lead.toList ++ ·)) := by
  induction details with
  | nil => rfl
  | cons detail rest ih =>
      rw [detailLines] at ih ⊢
      rw [List.map_cons, String.join_cons, String.toList_append, ih]
      simp [railed, written_cons]

theorem draw_children_eq {children : List Branch}
    (drawn : ∀ child ∈ children, ∀ (lead : String) (isLast : Bool),
      (drawBelow lead isLast child).toList =
        written ((linesBelow isLast child).map (lead.toList ++ ·))) (lead : String) :
    (drawChildren lead children).toList =
      written ((linesOfChildren children).map (lead.toList ++ ·)) := by
  induction children with
  | nil => rfl
  | cons child rest ih =>
      have here := drawn child List.mem_cons_self lead rest.isEmpty
      have later := ih fun other member => drawn other (List.mem_cons_of_mem _ member)
      rw [drawChildren, linesOfChildren, List.map_append, written_append, String.toList_append, here,
        later]

theorem draw_below_eq (root : Branch) (lead : String) (isLast : Bool) :
    (drawBelow lead isLast root).toList =
      written ((linesBelow isLast root).map (lead.toList ++ ·)) := by
  induction root using induction generalizing lead isLast with
  | node label details children ih =>
      have below := draw_children_eq ih (lead ++ rail isLast)
      rw [drawBelow, linesBelow]
      simp only [String.toList_append, detail_lines_eq, below, List.map_cons, List.map_append,
        List.map_map, written_cons, written_append, List.append_assoc, Function.comp_def]
      rfl

theorem draw_eq (root : Branch) :
    root.draw.toList = written (root.label.toList :: root.linesInside) := by
  cases root with
  | mk label details children =>
      have drawn : ∀ child ∈ children, ∀ (lead : String) (isLast : Bool),
          (drawBelow lead isLast child).toList =
            written ((linesBelow isLast child).map (lead.toList ++ ·)) :=
        fun child _ => draw_below_eq child
      have below := draw_children_eq drawn ""
      simp only [draw, drawRoot, Branch.label, linesInside, String.toList_append, detail_lines_eq,
        below, written_cons, written_append, List.append_assoc]
      simp

/-! ### Reading -/

theorem railed_free {details : List String} (free : ∀ detail ∈ details, '\n' ∉ detail.toList)
    (hasChildren : Bool) : FreeOfFeeds (railed hasChildren details) := by
  intro line member
  obtain ⟨detail, inDetails, rfl⟩ := List.mem_map.mp member
  have railFree : '\n' ∉ (detailRail hasChildren).toList := by cases hasChildren <;> decide
  rw [List.mem_append, not_or]
  exact ⟨railFree, free detail inDetails⟩

theorem lines_below_free {root : Branch} (free : FreeOfFeeds (root.label.toList :: root.linesInside))
    (isLast : Bool) : FreeOfFeeds (linesBelow isLast root) := by
  have connectorFree : '\n' ∉ (connector isLast).toList := by cases isLast <;> decide
  have railFree : '\n' ∉ (rail isLast).toList := by cases isLast <;> decide
  intro line member
  rw [lines_below_eq, List.mem_cons] at member
  rcases member with rfl | inside
  · rw [List.mem_append, not_or]
    exact ⟨connectorFree, free _ List.mem_cons_self⟩
  · obtain ⟨inner, there, rfl⟩ := List.mem_map.mp inside
    rw [List.mem_append, not_or]
    exact ⟨railFree, free inner (List.mem_cons_of_mem _ there)⟩

theorem lines_of_children_free {children : List Branch}
    (free : ∀ child ∈ children, FreeOfFeeds (child.label.toList :: child.linesInside)) :
    FreeOfFeeds (linesOfChildren children) := by
  induction children with
  | nil =>
      intro line member
      cases member
  | cons child rest ih =>
      intro line member
      rw [linesOfChildren, List.mem_append] at member
      cases member with
      | inl inChild => exact lines_below_free (free child List.mem_cons_self) _ line inChild
      | inr inRest =>
          exact ih (fun other there => free other (List.mem_cons_of_mem _ there)) line inRest

theorem OnLines.free {root : Branch} (onLines : root.OnLines) :
    FreeOfFeeds (root.label.toList :: root.linesInside) := by
  induction onLines with
  | @mk label details children labelFree detailsFree below ih =>
      intro line member
      rcases List.mem_cons.mp member with rfl | inside
      · exact labelFree
      · rcases List.mem_append.mp inside with inDetails | inChildren
        · exact railed_free detailsFree _ line inDetails
        · exact lines_of_children_free ih line inChildren

def isRailed (line : List Char) : Bool := line.head? == some '│' || line.head? == some ' '

theorem is_railed_behind_rail (isLast : Bool) (lines : List (List Char)) :
    ∀ line ∈ lines.map ((rail isLast).toList ++ ·), isRailed line = true := by
  intro line member
  obtain ⟨inner, -, rfl⟩ := List.mem_map.mp member
  cases isLast <;> rfl

theorem is_railed_of_detail (hasChildren : Bool) (details : List String) :
    ∀ line ∈ railed hasChildren details, isRailed line = true := by
  intro line member
  obtain ⟨detail, -, rfl⟩ := List.mem_map.mp member
  cases hasChildren <;> rfl

theorem not_railed_of_first_child (children : List Branch) (line : List Char)
    (first : (linesOfChildren children).head? = some line) : isRailed line = false := by
  cases children with
  | nil => cases first
  | cons child rest =>
      rw [linesOfChildren, lines_below_eq, List.cons_append, List.head?_cons, Option.some.injEq]
        at first
      rw [← first]
      cases rest.isEmpty <;> rfl

theorem railed_injective (hasChildren : Bool) : Function.Injective (railed hasChildren) := by
  apply List.map_injective_iff.mpr
  intro detail other same
  exact String.toList_injective (List.append_cancel_left same)

theorem connector_append_inj {isLast otherLast : Bool} {label other : String}
    (same : (connector isLast).toList ++ label.toList = (connector otherLast).toList ++ other.toList) :
    isLast = otherLast ∧ label = other := by
  have width (last : Bool) : (connector last).toList.length = 4 := by cases last <;> decide
  have told : ∀ last other, (connector last).toList = (connector other).toList → last = other := by
    decide
  obtain ⟨connectors, labels⟩ := List.append_inj same (by rw [width, width])
  exact ⟨told _ _ connectors, String.toList_injective labels⟩

/-- The lines below a label tell the further lines of the node and the lines of its children. -/
theorem lines_inside_parts {label otherLabel : String} {details others : List String}
    {children otherChildren : List Branch}
    (same : (mk label details children).linesInside =
      (mk otherLabel others otherChildren).linesInside) :
    railed (!children.isEmpty) details = railed (!otherChildren.isEmpty) others ∧
      linesOfChildren children = linesOfChildren otherChildren :=
  cut_unique same (is_railed_of_detail _ details) (not_railed_of_first_child children)
    (is_railed_of_detail _ others) (not_railed_of_first_child otherChildren)

/-- The lines of some children tell those of the first child and those of all the others. -/
theorem lines_of_children_parts {child other : Branch} {rest otherRest : List Branch}
    (same : linesOfChildren (child :: rest) = linesOfChildren (other :: otherRest)) :
    child.label = other.label ∧ child.linesInside = other.linesInside ∧
      linesOfChildren rest = linesOfChildren otherRest := by
  rw [linesOfChildren, linesOfChildren, lines_below_eq, lines_below_eq, List.cons_append,
    List.cons_append] at same
  obtain ⟨first, later⟩ := List.cons.inj same
  obtain ⟨sameLast, sameLabel⟩ := connector_append_inj first
  rw [sameLast] at later
  obtain ⟨inside, behind⟩ := cut_unique later (is_railed_behind_rail _ _)
    (not_railed_of_first_child rest) (is_railed_behind_rail _ _) (not_railed_of_first_child otherRest)
  have cancelled : Function.Injective ((rail otherRest.isEmpty).toList ++ ·) :=
    fun _ _ => List.append_cancel_left
  exact ⟨sameLabel, List.map_injective_iff.mpr cancelled inside, behind⟩

theorem lines_of_children_injective {children : List Branch}
    (told : ∀ child ∈ children, ∀ other : Branch, child.label = other.label →
      child.linesInside = other.linesInside → child = other)
    {otherChildren : List Branch}
    (same : linesOfChildren children = linesOfChildren otherChildren) : children = otherChildren := by
  induction children generalizing otherChildren with
  | nil =>
      cases otherChildren with
      | nil => rfl
      | cons other rest => simp [linesOfChildren, lines_below_eq] at same
  | cons child rest ih =>
      cases otherChildren with
      | nil => simp [linesOfChildren, lines_below_eq] at same
      | cons other otherRest =>
          obtain ⟨sameLabel, inside, behind⟩ := lines_of_children_parts same
          have here := told child List.mem_cons_self other sameLabel inside
          have later := ih (fun next member => told next (List.mem_cons_of_mem _ member)) behind
          rw [here, later]

/-- The label of a node and the lines below it tell the node with all that is below it. -/
theorem eq_of_lines (root other : Branch) (sameLabel : root.label = other.label)
    (inside : root.linesInside = other.linesInside) : root = other := by
  induction root using induction generalizing other with
  | node label details children ih =>
      cases other with
      | mk otherLabel others otherChildren =>
          obtain ⟨sameDetails, sameLines⟩ := lines_inside_parts inside
          obtain rfl := lines_of_children_injective ih sameLines
          rw [show label = otherLabel from sameLabel, railed_injective _ sameDetails]

/-- Two trees of which every label and every further line stands on one line are the same if they look
the same. -/
theorem drawing_tells_tree (first second : Branch) (firstOnLines : first.OnLines)
    (secondOnLines : second.OnLines) (same : first.draw = second.draw) : first = second := by
  have texts := congrArg String.toList same
  rw [draw_eq, draw_eq] at texts
  have lines := written_injective firstOnLines.free secondOnLines.free texts
  obtain ⟨labels, inside⟩ := List.cons.inj lines
  exact eq_of_lines first second (String.toList_injective labels) inside

/-- A tree with labels and further lines that look like connectors and rails. -/
def lookAlike : Branch :=
  mk "root/" ["├── a", ""] [mk "│ a" [] [], mk "│ b" [] [], mk "└── c" ["  "] [mk "" ["└── "] []]]

def lookAlikeOf (labels : List String) : Branch :=
  mk "root/" ["├── a", ""] (labels.map (mk · [] []) ++ [mk "└── c" ["  "] [mk "" ["└── "] []]])

theorem look_alike_told :
    lookAlike.OnLines ∧ (lookAlikeOf ["│ a", "│ b"]).OnLines ∧
    lookAlike.draw = (lookAlikeOf ["│ a", "│ b"]).draw ∧
    lookAlike = lookAlikeOf ["│ a", "│ b"] := by
  have plain (label : String) (free : '\n' ∉ label.toList) : (mk label [] []).OnLines :=
    .mk free (List.forall_mem_nil _) (List.forall_mem_nil _)
  have last : (mk "└── c" ["  "] [mk "" ["└── "] []]).OnLines := by
    refine .mk (by decide) (by decide) ?_
    rw [List.forall_mem_singleton]
    exact .mk (by decide) (by decide) (List.forall_mem_nil _)
  have onLines : lookAlike.OnLines := by
    refine .mk (by decide) (by decide) ?_
    simp only [List.forall_mem_cons]
    exact ⟨plain _ (by decide), plain _ (by decide), last, List.forall_mem_nil _⟩
  have otherOnLines : (lookAlikeOf ["│ a", "│ b"]).OnLines := onLines
  have same : lookAlike.draw = (lookAlikeOf ["│ a", "│ b"]).draw := rfl
  exact ⟨onLines, otherOnLines, same, drawing_tells_tree _ _ onLines otherOnLines same⟩

end LineCensus.Report.Branch
