import CodeSurvey.Parsing.Fragment

namespace CodeSurvey.Parsing

/-- A way down from a vertex. Without a fragment it marks the beginning of an error. -/
structure Link where
  vertex : Nat
  fragment : Option Fragment
deriving Inhabited

/-- A state of the automaton at a place in the text, with the ways that lead there. -/
structure Vertex where
  state : Nat
  place : Nat
  links : Array Link := #[]
  cost : Nat := 0
  weight : Nat := 0
  dynamic : Int := 0
deriving Inhabited

structure Passed where
  place : Nat
  depth : Nat
  state : Nat
deriving DecidableEq, Repr, Inhabited

inductive Status where
  | active
  | paused (next : Fragment)
  | halted
deriving Inhabited

/-- The top of a reading. -/
structure Head where
  vertex : Nat
  status : Status := .active
  weightAtError : Nat := 0
  summary : Option (List Passed) := none
deriving Inhabited

def Head.isActive (h : Head) : Bool := match h.status with
  | .active => true
  | _ => false

def Head.isPaused (h : Head) : Bool := match h.status with
  | .paused _ => true
  | _ => false

def Head.isHalted (h : Head) : Bool := match h.status with
  | .halted => true
  | _ => false

structure Limits where
  readings : Nat := 6
  overflow : Nat := 4
  links : Nat := 8
  trails : Nat := 64
  summaryDepth : Nat := 16
  costGap : Nat := 1800

def limits : Limits := {}

abbrev Vertices := Array Vertex

/-- Whether two fragments are readings of the same text as the same symbol. -/
def Fragment.isLike (a b : Fragment) : Bool :=
  let x := a.outline
  let y := b.outline
  x.label = y.label && ((x.cost > 0 && y.cost > 0) ||
    (x.origin = y.origin && x.start = y.start && x.stop = y.stop &&
      a.parts.length = b.parts.length && x.extra = y.extra))

def Link.isLike (a b : Link) : Bool :=
  match a.fragment, b.fragment with
  | none, none => true
  | some x, some y => x.isLike y
  | _, _ => false

def Link.dynamic (l : Link) : Int := (l.fragment.map (·.dynamic)).getD 0

def Vertex.agrees (a b : Vertex) : Bool :=
  a.state = b.state && a.place = b.place && a.cost = b.cost

/-- Adds a way down to a vertex. A way that is like a present one is merged with it, as far down as
the two agree. -/
def addLink (t : Task) : Nat → Vertices → Nat → Link → Vertices
  | 0, vs, _, _ => vs
  | fuel + 1, vs, v, link =>
    if link.vertex = v then vs
    else
      let here := vs.getD v default
      let below := vs.getD link.vertex default
      let candidate := here.links.findIdx? fun l =>
        l.isLike link && (l.vertex = link.vertex || (vs.getD l.vertex default).agrees below)
      match candidate with
      | some i =>
        let present := here.links.getD i default
        if present.vertex = link.vertex then
          if present.dynamic < link.dynamic then
            vs.modify v fun x => { x with
              links := x.links.setIfInBounds i { present with fragment := link.fragment }
              dynamic := below.dynamic + link.dynamic }
          else vs
        else
          let vs := below.links.foldl (fun vs l => addLink t fuel vs present.vertex l) vs
          vs.modify v fun x => { x with dynamic := max x.dynamic (below.dynamic + link.dynamic) }
      | none =>
        if here.links.size = limits.links then vs
        else
          let weight := below.weight + (link.fragment.map t.weight).getD 0
          vs.modify v fun x => { x with
            links := x.links.push link
            weight := max x.weight weight
            dynamic := max x.dynamic (below.dynamic + link.dynamic) }

/-- A way from the top of a reading down: where it has come to, the fragments on it from there to
the top, and how many of them count. -/
structure Trail where
  vertex : Nat
  fragments : List Fragment := []
  count : Nat := 0
deriving Inhabited

def Trail.follow (trail : Trail) (l : Link) : Trail :=
  match l.fragment with
  | some f => ⟨l.vertex, f :: trail.fragments, if f.extra then trail.count else trail.count + 1⟩
  | none => ⟨l.vertex, trail.fragments, trail.count + 1⟩

/-- What becomes of a trail at a vertex. -/
inductive TrailStep where
  | goOn
  | finish
  | drop

/-- Takes each trail one step down. Trails that branch continue at the end of the list. -/
def stepTrails (vs : Vertices) (decide : Trail → TrailStep) (trails : List Trail) :
    List Trail × List Trail :=
  let go := fun (state : List Trail × List Trail × List Trail × Nat) trail =>
    let (kept, branched, finished, total) := state
    let links := (vs.getD trail.vertex default).links
    match decide trail, links[0]? with
    | .finish, _ => (kept, branched, trail :: finished, total - 1)
    | .drop, _ => (kept, branched, finished, total - 1)
    | .goOn, none => (kept, branched, finished, total - 1)
    | .goOn, some first =>
      let others := ((links.toList.drop 1).take (limits.trails - total)).map trail.follow
      (trail.follow first :: kept, others.reverse ++ branched, finished, total + others.length)
  let (kept, branched, finished, _) := trails.foldl go ([], [], [], trails.length)
  (kept.reverse ++ branched.reverse, finished.reverse)

def walkTrails (vs : Vertices) (decide : Trail → TrailStep) : Nat → List Trail → List Trail
  | 0, _ => []
  | _ + 1, [] => []
  | fuel + 1, trails =>
    let (next, finished) := stepTrails vs decide trails
    finished ++ walkTrails vs decide fuel next

def groupTrails (trails : List Trail) : List (Nat × List (List Fragment)) :=
  trails.foldl (fun groups trail =>
    if groups.any (·.1 = trail.vertex) then
      groups.map fun g => if g.1 = trail.vertex then (g.1, g.2 ++ [trail.fragments]) else g
    else groups ++ [(trail.vertex, [trail.fragments])]) []

def Vertices.below (vs : Vertices) (v count : Nat) : List (Nat × List (List Fragment)) :=
  groupTrails <| walkTrails vs (fun t => if t.count = count then .finish else .goOn)
    (vs.size + 1) [{ vertex := v }]

def Vertices.toBottom (vs : Vertices) (v : Nat) : List (Nat × List (List Fragment)) :=
  groupTrails <| walkTrails vs
    (fun t => if (vs.getD t.vertex default).links.isEmpty then .finish else .goOn)
    (vs.size + 1) [{ vertex := v }]

/-- Adds a vertex on top of another. -/
def Vertices.on (t : Task) (vs : Vertices) (v : Nat) (fragment : Option Fragment) (state : Nat) :
    Vertices :=
  let below := vs.getD v default
  vs.push { state
            place := (fragment.map (·.outline.stop)).getD below.place
            links := #[⟨v, fragment⟩]
            cost := below.cost + (fragment.map (·.cost)).getD 0
            weight := below.weight + (fragment.map t.weight).getD 0
            dynamic := below.dynamic + (fragment.map (·.dynamic)).getD 0 }

/-- Records the states on the way down, the nearest first and each once at its depth. -/
def summarize (vs : Vertices) : Nat → List Trail → List Passed → List Passed
  | 0, _, found => found
  | _ + 1, [], found => found
  | fuel + 1, trails, found =>
    let found := trails.foldl (fun found trail =>
      let here := vs.getD trail.vertex default
      let passed : Passed := ⟨here.place, trail.count, here.state⟩
      let known := (found.takeWhile fun p => p.depth ≥ trail.count).any fun p =>
        p.depth = trail.count && p.state = here.state
      if trail.count > limits.summaryDepth || known then found else passed :: found) found
    let (next, _) := stepTrails vs
      (fun t => if t.count > limits.summaryDepth then .drop else .goOn) trails
    summarize vs fuel next found

end CodeSurvey.Parsing
