import Codebank.NetworkGame.Invariants
import Codebank.NetworkGame.Path

namespace Codebank
namespace NetworkGame

open Foundation List

/-!
# Networks

`hasNetwork` finds a network exactly when there is one.  What the search has on its stack is
a path that can be grown square by square; a network is such a path that has reached the
other goal.
-/

/-! ## Paths as they grow -/

/-- The direction changes at the previous square. -/
def TurnsFrom (square previous : Square) (rest : List Square) : Prop :=
  ∀ before, rest.head? = some before ->
    getDirection square previous ≠ getDirection previous before

/-- The stack of a path that was appended square by square. -/
def Grown (board : Board) (color : Color) (startGoal endGoal : Goal) : List Square -> Prop
  | [] => False
  | [start] => board.color start = color ∧ start.getGoal = startGoal
  | square :: previous :: rest =>
    Grown board color startGoal endGoal (previous :: rest) ∧ previous.getGoal ≠ endGoal ∧
      board.color square = color ∧ square ∉ previous :: rest ∧
      (∃ direction, board.FirstOccupied previous direction square) ∧
      TurnsFrom square previous rest ∧
      (square.getGoal = .nowhere ∨ square.getGoal = endGoal ∧ 5 <= (previous :: rest).length)

section

variable {board : Board} {color : Color} {startGoal endGoal : Goal} {more positions : List Square}

theorem Grown.suffix (grown : Grown board color startGoal endGoal (more ++ positions))
    (nonempty : positions ≠ []) : Grown board color startGoal endGoal positions := by
  induction more with
  | nil => exact grown
  | cons square more ih =>
    cases behind : more ++ positions with
    | nil => exact absurd (append_eq_nil_iff.mp behind).2 nonempty
    | cons previous rest =>
      rw [cons_append, behind] at grown
      apply ih
      rw [behind]
      exact grown.1

theorem Grown.nodup (grown : Grown board color startGoal endGoal positions) : positions.Nodup := by
  induction positions with
  | nil => exact nodup_nil
  | cons square rest ih =>
    cases rest with
    | nil => exact nodup_singleton square
    | cons previous rest => exact nodup_cons.mpr ⟨grown.2.2.2.1, ih grown.1⟩

theorem Grown.length_le (grown : Grown board color startGoal endGoal positions) :
    positions.length <= 64 := by
  have bound := grown.nodup.length_le_card
  simpa using bound

end

theorem connectionStep_lines : ∀ direction,
    (connectionStep direction).1 = 0 ∨ (connectionStep direction).2 = 0 ∨
      (connectionStep direction).1 = -(connectionStep direction).2 ∨
      (connectionStep direction).1 = (connectionStep direction).2 := by
  decide

/-- Squares in a direction lie on a line. -/
theorem getDirection_firstOccupied {board : Board} {previous square : Square} {direction : Fin 8}
    (connected : board.FirstOccupied previous direction square) :
    getDirection square previous ≠ .noDirection := by
  rcases connected with ⟨_, distance, _, sameX, sameY, _⟩
  unfold getDirection
  rcases connectionStep_lines direction with zero | zero | inverse | same
  · have column : square.getX - previous.getX = 0 := by
      rw [sameX, zero, Int.mul_zero]
      omega
    simp [column]
  · have row : square.getY - previous.getY = 0 := by
      rw [sameY, zero, Int.mul_zero]
      omega
    by_cases column : square.getX - previous.getX = 0
    · simp [column]
    · simp [column, row]
  · have diagonal : square.getX - previous.getX = -(square.getY - previous.getY) := by
      rw [sameX, sameY, inverse, Int.mul_neg]
      omega
    simp only
    split_ifs <;> simp
  · have diagonal : square.getX - previous.getX = square.getY - previous.getY := by
      rw [sameX, sameY, same]
      omega
    simp only
    split_ifs <;> simp

/-! ## The search -/

/-- An item of a list that does not count can be left out of the search. -/
theorem exists_mem_cons_iff {Item Found : Type*} {item : Found -> Item} {first : Item}
    {rest : List Item} {Holds : Found -> Prop}
    (fails : ∀ found, item found = first -> ¬ Holds found) :
    (∃ found, item found ∈ first :: rest ∧ Holds found) <->
      ∃ found, item found ∈ rest ∧ Holds found := by
  constructor
  · rintro ⟨found, member, holds⟩
    rcases mem_cons.mp member with same | later
    · exact absurd holds (fails found same)
    · exact ⟨found, later, holds⟩
  · rintro ⟨found, member, holds⟩
    exact ⟨found, mem_cons_of_mem _ member, holds⟩

/-- A state of the search: the flags mark the squares of the path. -/
structure Searching (base : Board) (color : Color) (path : Path) (board : Board) : Prop where
  colors : board.color = base.color
  marked : ∀ square, (board.grid square).visited = true <-> square ∈ path.positions
  grown : Grown base color path.startGoal path.endGoal path.positions
  network : path.network = true <->
    ∃ last, path.last = some last ∧ last.getGoal = path.endGoal
  possible : path.endGoal ≠ .nowhere

/-- The path can be grown to a network. -/
def Completes (base : Board) (color : Color) (path : Path) : Prop :=
  ∃ more last, Grown base color path.startGoal path.endGoal (more ++ path.positions) ∧
    (more ++ path.positions).head? = some last ∧ last.getGoal = path.endGoal

section

variable {base board : Board} {color : Color} {path : Path} {square previous : Square}
  {rest : List Square}

/-- The path with one more square. -/
def Path.grow (path : Path) (square : Square) : Path :=
  { path with
    positions := square :: path.positions
    network := path.network || decide (square.getGoal = path.endGoal) }

section

variable (searching : Searching base color path board)

include searching

/-- What `canAppend` checks is what it takes to grow. -/
theorem Searching.canAppend_iff (incomplete : path.network = false)
    (stack : path.positions = previous :: rest) (own : base.color square = color)
    (connected : ∃ direction, base.FirstOccupied previous direction square) :
    path.canAppend board square = true <->
      Grown base color path.startGoal path.endGoal (square :: path.positions) := by
  have grown := searching.grown
  have unreached : previous.getGoal ≠ path.endGoal := by
    intro reached
    have complete := searching.network.mpr ⟨previous, by rw [Path.last, stack]; rfl, reached⟩
    rw [incomplete] at complete
    cases complete
  have unvisited : (board.grid square).visited = false <-> square ∉ path.positions := by
    rw [<- searching.marked, Bool.not_eq_true]
  have straight : getDirection square previous ≠ .noDirection := by
    rcases connected with ⟨direction, first⟩
    exact getDirection_firstOccupied first
  have turning : Path.turns path.positions square = true <-> TurnsFrom square previous rest := by
    rw [stack]
    cases rest with
    | nil => simp [Path.turns, TurnsFrom, straight]
    | cons before rest =>
      rw [stack] at grown
      rcases grown.2.2.2.2.1 with ⟨direction, first⟩
      have straightToo := getDirection_firstOccupied first
      simp [Path.turns, TurnsFrom, straightToo]
  rw [stack] at grown unvisited turning ⊢
  simp only [Grown, grown, unreached, own, connected, true_and, ne_eq, not_false_eq_true]
  rw [<- unvisited, <- turning]
  unfold Path.canAppend
  rw [incomplete, stack]
  cases flag : (board.grid square).visited with
  | true => simp
  | false =>
    cases turned : Path.turns (previous :: rest) square with
    | false => simp
    | true =>
      by_cases inside : square.getGoal = .nowhere
      · simp [searching.possible, inside, MIN_NETWORK_LENGTH, searching.possible.symm]
      · by_cases reached : square.getGoal = path.endGoal
        · have long : 5 <= (previous :: rest).length <->
              decide ((previous :: rest).length < MIN_NETWORK_LENGTH - 1) = false := by
            rw [decide_eq_false_iff_not, MIN_NETWORK_LENGTH]
            omega
          rw [long]
          simp [reached, searching.possible]
        · simp [inside, reached, searching.possible]

theorem Searching.grow (incomplete : path.network = false)
    (longer : Grown base color path.startGoal path.endGoal (square :: path.positions)) :
    Searching base color (path.grow square) (board.setVisited square true) where
  colors := (board.color_setVisited square true).trans searching.colors
  marked other := by
    rw [Board.visited_setVisited, Path.grow, mem_cons]
    by_cases same : other = square
    · simp [same]
    · simp [same, searching.marked]
  grown := longer
  network := by
    rw [Path.grow, incomplete]
    simp [Path.last]
  possible := searching.possible

/-- A path that has not reached the goal is completed through one more square. -/
theorem Searching.completes_iff (incomplete : path.network = false)
    (stack : path.positions = previous :: rest) :
    Completes base color path <->
      ∃ square, (base.color square = color ∧
          ∃ direction, base.FirstOccupied previous direction square) ∧
        Grown base color path.startGoal path.endGoal (square :: path.positions) ∧
        Completes base color (path.grow square) := by
  constructor
  · rintro ⟨more, last, grown, isLast, reached⟩
    rcases eq_nil_or_concat more with rfl | ⟨further, square, rfl⟩
    · have complete := searching.network.mpr ⟨last, isLast, reached⟩
      rw [incomplete] at complete
      cases complete
    · rw [concat_eq_append, append_assoc, singleton_append] at grown isLast
      have longer := grown.suffix (cons_ne_nil square path.positions)
      have parts := longer
      rw [stack] at parts
      exact ⟨square, ⟨parts.2.2.1, parts.2.2.2.2.1⟩, longer, further, last, grown, isLast, reached⟩
  · rintro ⟨square, _, _, more, last, grown, isLast, reached⟩
    have whole : more ++ (path.grow square).positions = (more ++ [square]) ++ path.positions := by
      rw [Path.grow, append_assoc, singleton_append]
    rw [whole] at grown isLast
    exact ⟨more ++ [square], last, grown, isLast, reached⟩

end

/-- The loop over the connections, if the search from each longer path is right: the path and
the board are as before, and the answer tells whether some connection completes the path. -/
theorem Searching.searchConnections (search : Path -> Board -> Option (Bool × Path × Board))
    (searching : Searching base color path board) (incomplete : path.network = false)
    (stack : path.positions = previous :: rest) (searched : ∀ square,
      Grown base color path.startGoal path.endGoal (square :: path.positions) ->
      ∃ found, search (path.grow square) (board.setVisited square true) =
          some (found, path.grow square, board.setVisited square true) ∧
        (found = true <-> Completes base color (path.grow square)))
    (connections : List (Option Square)) (lead : ∀ square, some square ∈ connections ->
      ∃ direction, base.FirstOccupied previous direction square) :
    ∃ found, Board.searchConnections search color connections path board =
        some (found, path, board) ∧
      (found = true <-> ∃ square, some square ∈ connections ∧ base.color square = color ∧
        Grown base color path.startGoal path.endGoal (square :: path.positions) ∧
        Completes base color (path.grow square)) := by
  induction connections with
  | nil => exact ⟨false, rfl, by simp⟩
  | cons connection connections ih =>
    have later := ih fun square member => lead square (mem_cons_of_mem _ member)
    cases connection with
    | none =>
      rcases later with ⟨found, done, right⟩
      exact ⟨found, done, by simp [right]⟩
    | some square =>
      by_cases own : base.color square = color
      · have ownToo : board.color square = color := by rw [searching.colors, own]
        have appendable := searching.canAppend_iff incomplete stack own
          (lead square mem_cons_self)
        cases can : path.canAppend board square with
        | false =>
          rcases later with ⟨found, done, right⟩
          refine ⟨found, ?_, ?_⟩
          · rw [Board.searchConnections, if_pos ownToo, Path.append_of_not_canAppend can]
            exact done
          · have stuck : ¬ Grown base color path.startGoal path.endGoal
                (square :: path.positions) := by
              rw [<- appendable, can]
              exact Bool.false_ne_true
            rw [right]
            refine (exists_mem_cons_iff ?_).symm
            rintro other same ⟨_, grown, _⟩
            cases same
            exact stuck grown
        | true =>
          have grown := appendable.mp can
          have unvisited : (board.grid square).visited = false := by
            rw [<- Bool.not_eq_true, searching.marked]
            exact (nodup_cons.mp grown.nodup).1
          have back := Path.pop_appended unvisited incomplete
          rcases searched square grown with ⟨found, done, right⟩
          have turn : Board.searchConnections search color (some square :: connections) path
                board =
              if found then some (true, path, board)
              else Board.searchConnections search color connections path board := by
            rw [Board.searchConnections_appended ownToo (Path.append_of_canAppend can) done,
              Path.grow, back]
          rw [turn]
          cases found with
          | true =>
            refine ⟨true, rfl, fun _ => ?_, fun _ => rfl⟩
            exact ⟨square, mem_cons_self, own, grown, right.mp rfl⟩
          | false =>
            rcases later with ⟨answer, finished, rightToo⟩
            refine ⟨answer, finished, ?_⟩
            rw [rightToo]
            refine (exists_mem_cons_iff ?_).symm
            rintro other same ⟨_, _, completes⟩
            cases same
            exact Bool.false_ne_true (right.mpr completes)
      · rcases later with ⟨found, done, right⟩
        refine ⟨found, ?_, ?_⟩
        · rw [Board.searchConnections, if_neg (by rw [searching.colors]; exact own)]
          exact done
        · rw [right]
          refine (exists_mem_cons_iff ?_).symm
          rintro other same ⟨isOwn, _⟩
          cases same
          exact own isOwn

theorem mem_getConnections (same : board.color = base.color) :
    some square ∈ board.getConnections previous <->
      ∃ direction, base.FirstOccupied previous direction square := by
  rw [Board.getConnections, mem_map]
  constructor
  · rintro ⟨direction, _, found⟩
    rw [Board.getConnection_congr same] at found
    exact ⟨direction, Board.sees_iff_firstOccupied.mp (Board.getConnection_eq_some.mp found)⟩
  · rintro ⟨direction, first⟩
    refine ⟨direction, mem_finRange direction, ?_⟩
    rw [Board.getConnection_congr same]
    exact Board.getConnection_eq_some.mpr (Board.sees_iff_firstOccupied.mpr first)

/-- The search ends, restores the path and the board, and its answer is right. -/
theorem Searching.dfsFull {fuel : Nat} (searching : Searching base color path board)
    (enough : 65 <= fuel + path.positions.length) :
    ∃ found, Board.dfsFull color fuel path board = some (found, path, board) ∧
      (found = true <-> Completes base color path) := by
  induction fuel generalizing path board with
  | zero =>
    have bound := searching.grown.length_le
    omega
  | succ fuel ih =>
    rw [Board.dfsFull]
    cases complete : path.network with
    | true =>
      rcases searching.network.mp complete with ⟨last, isLast, reached⟩
      refine ⟨true, rfl, fun _ => ?_, fun _ => rfl⟩
      exact ⟨[], last, searching.grown, isLast, reached⟩
    | false =>
      cases stack : path.positions with
      | nil =>
        have grown := searching.grown
        rw [stack] at grown
        exact absurd grown id
      | cons previous rest =>
        have isLast : path.last = some previous := by rw [Path.last, stack]; rfl
        rw [isLast, if_neg Bool.false_ne_true]
        have loop := Searching.searchConnections (Board.dfsFull color fuel) searching
          complete stack
          (fun square grown => ih (searching.grow complete grown) (by
            rw [Path.grow, length_cons]
            omega))
          (board.getConnections previous)
          (fun square => (mem_getConnections searching.colors).mp)
        rcases loop with ⟨found, done, right⟩
        refine ⟨found, done, ?_⟩
        rw [right, searching.completes_iff complete stack]
        constructor
        · rintro ⟨square, member, own, facts⟩
          exact ⟨square, ⟨own, (mem_getConnections searching.colors).mp member⟩, facts⟩
        · rintro ⟨square, ⟨own, connected⟩, facts⟩
          exact ⟨square, (mem_getConnections searching.colors).mpr connected, own, facts⟩

end

/-! ## The rule -/

/-- The coordinate that tells the two goals of a colour: white has the first and the last
column, black the first and the last row. -/
def goalCoordinate (color : Color) (square : Square) : Int :=
  match color with
  | .white => square.getX
  | _ => square.getY

def InGoal (square : Square) : Prop :=
  square.getX = 0 ∨ square.getX = 7 ∨ square.getY = 0 ∨ square.getY = 7

/-- Three squares on a line: the steps from one to the next are parallel. -/
def OnOneLine (first second third : Square) : Prop :=
  (first.getX - second.getX) * (second.getY - third.getY) =
    (first.getY - second.getY) * (second.getX - third.getX)

/-- A network of a colour, as the rules of the game have it. -/
structure IsNetwork (board : Board) (color : Color) (chips : List Square) : Prop where
  long : 6 <= chips.length
  distinct : chips.Nodup
  own : ∀ chip, chip ∈ chips -> board.color chip = color
  ends : ∃ first last, (chips.head? = some first ∧ chips.getLast? = some last) ∧
    (goalCoordinate color first = 0 ∧ goalCoordinate color last = 7 ∨
      goalCoordinate color first = 7 ∧ goalCoordinate color last = 0)
  inner : ∀ before chip after, chips = before ++ chip :: after -> before ≠ [] -> after ≠ [] ->
    ¬ InGoal chip
  connected : ∀ before chip next after, chips = before ++ chip :: next :: after ->
    ∃ direction, board.FirstOccupied chip direction next
  turning : ∀ before first second third after,
    chips = before ++ first :: second :: third :: after -> ¬ OnOneLine first second third

section

variable {board : Board} {color : Color} {chips : List Square}

/-- Two chips see each other. -/
theorem firstOccupied_symm {first second : Square} (taken : board.Occupied first)
    (connected : ∃ direction, board.FirstOccupied first direction second) :
    ∃ direction, board.FirstOccupied second direction first := by
  rcases connected with ⟨direction, ahead⟩
  refine ⟨opposite direction, Board.sees_iff_firstOccupied.mp ?_⟩
  exact (sees_opposite_iff moved_opposite opposite_opposite taken).mpr
    (Board.sees_iff_firstOccupied.mpr ahead).1

theorem onOneLine_comm {first second third : Square} :
    OnOneLine first second third <-> OnOneLine third second first := by
  have swap : ∀ a b c d : Int, a * d = b * c <-> -c * -b = -d * -a := by
    intro a b c d
    rw [Int.neg_mul_neg, Int.neg_mul_neg, Int.mul_comm c b, Int.mul_comm d a]
    exact eq_comm
  rw [OnOneLine, OnOneLine, swap, Int.neg_sub, Int.neg_sub, Int.neg_sub, Int.neg_sub]

/-- A network can be read from the other end. -/
theorem IsNetwork.reverse (network : IsNetwork board color chips) (chip : color ≠ .empty) :
    IsNetwork board color chips.reverse where
  long := by
    rw [length_reverse]
    exact network.long
  distinct := nodup_reverse.mpr network.distinct
  own square member := network.own square (mem_reverse.mp member)
  ends := by
    rcases network.ends with ⟨first, last, ⟨isFirst, isLast⟩, goals⟩
    refine ⟨last, first, ⟨?_, ?_⟩, ?_⟩
    · rw [head?_reverse, isLast]
    · rw [getLast?_reverse, isFirst]
    · rcases goals with ⟨low, high⟩ | ⟨high, low⟩
      · exact .inr ⟨high, low⟩
      · exact .inl ⟨low, high⟩
  inner before square after whole notFirst notLast := by
    have turned := reverse_eq_iff.mp whole
    rw [reverse_append, reverse_cons, append_assoc, singleton_append] at turned
    refine network.inner after.reverse square before.reverse turned ?_ ?_
    · simpa using notLast
    · simpa using notFirst
  connected before square next after whole := by
    have turned := reverse_eq_iff.mp whole
    rw [reverse_append, reverse_cons, reverse_cons, append_assoc,
      append_assoc, singleton_append, singleton_append] at turned
    refine firstOccupied_symm ?_ (network.connected after.reverse next square before.reverse turned)
    have member : next ∈ chips := by simp [turned]
    rw [Board.Occupied, network.own next member]
    exact chip
  turning before first second third after whole := by
    have turned := reverse_eq_iff.mp whole
    rw [reverse_append, reverse_cons, reverse_cons, reverse_cons,
      append_assoc, append_assoc, append_assoc, singleton_append,
      singleton_append, singleton_append] at turned
    rw [onOneLine_comm]
    exact network.turning after.reverse third second first before.reverse turned

/-! ### Lines -/

/-- The direction flag of a pair of differences. -/
def lineOf (dx dy : Int) : LineDirection :=
  if dx = 0 then .vertical
  else if dy = 0 then .horizontal
  else if dx = -dy then .fwdDiag
  else if dx = dy then .bkwdDiag
  else .noDirection

/-- The smallest difference with a flag. -/
def lineUnit : LineDirection -> Int × Int
  | .vertical => (0, 1)
  | .horizontal => (1, 0)
  | .fwdDiag => (-1, 1)
  | .bkwdDiag => (1, 1)
  | .noDirection => (0, 0)

theorem lineUnit_parallel {first second : LineDirection} (line : first ≠ .noDirection)
    (lineToo : second ≠ .noDirection) :
    first = second <->
      (lineUnit first).1 * (lineUnit second).2 = (lineUnit first).2 * (lineUnit second).1 := by
  cases first <;> cases second <;> first | exact absurd rfl line | exact absurd rfl lineToo | decide

theorem lineOf_unit {dx dy : Int} (line : lineOf dx dy ≠ .noDirection)
    (nonzero : ¬ (dx = 0 ∧ dy = 0)) :
    ∃ factor, factor ≠ 0 ∧ dx = factor * (lineUnit (lineOf dx dy)).1 ∧
      dy = factor * (lineUnit (lineOf dx dy)).2 := by
  unfold lineOf at line ⊢
  by_cases column : dx = 0
  · rw [if_pos column]
    exact ⟨dy, fun zero => nonzero ⟨column, zero⟩, by simp [lineUnit, column], by simp [lineUnit]⟩
  · rw [if_neg column] at line ⊢
    by_cases row : dy = 0
    · rw [if_pos row]
      exact ⟨dx, column, by simp [lineUnit], by simp [lineUnit, row]⟩
    · rw [if_neg row] at line ⊢
      by_cases forward : dx = -dy
      · rw [if_pos forward]
        exact ⟨dy, row, by simp [lineUnit, forward], by simp [lineUnit]⟩
      · rw [if_neg forward] at line ⊢
        by_cases backward : dx = dy
        · rw [if_pos backward]
          exact ⟨dy, row, by simp [lineUnit, backward], by simp [lineUnit]⟩
        · rw [if_neg backward] at line
          exact absurd rfl line

/-- The flags of two differences are the same when they are parallel. -/
theorem lineOf_eq_iff {dx dy ex ey : Int} (line : lineOf dx dy ≠ .noDirection)
    (lineToo : lineOf ex ey ≠ .noDirection) (nonzero : ¬ (dx = 0 ∧ dy = 0))
    (nonzeroToo : ¬ (ex = 0 ∧ ey = 0)) : lineOf dx dy = lineOf ex ey <-> dx * ey = dy * ex := by
  rcases lineOf_unit line nonzero with ⟨factor, positive, sameX, sameY⟩
  rcases lineOf_unit lineToo nonzeroToo with ⟨factorToo, positiveToo, sameXToo, sameYToo⟩
  rw [lineUnit_parallel line lineToo]
  generalize lineUnit (lineOf dx dy) = unit at sameX sameY
  generalize lineUnit (lineOf ex ey) = unitToo at sameXToo sameYToo
  have product : factor * factorToo ≠ 0 := Int.mul_ne_zero positive positiveToo
  have cross : ∀ first second : Int,
      factor * first * (factorToo * second) = factor * factorToo * (first * second) := by
    intro first second
    rw [Int.mul_assoc, Int.mul_left_comm first, <- Int.mul_assoc]
  rw [sameX, sameY, sameXToo, sameYToo, cross, cross]
  exact (Int.mul_eq_mul_left_iff product).symm

/-- Chips on different squares of a line through two of them. -/
theorem getDirection_eq_iff {first second third : Square}
    (line : getDirection first second ≠ .noDirection)
    (lineToo : getDirection second third ≠ .noDirection) (different : first ≠ second)
    (differentToo : second ≠ third) :
    getDirection first second = getDirection second third <-> OnOneLine first second third := by
  have nonzero : ∀ {first second : Square}, first ≠ second ->
      ¬ (first.getX - second.getX = 0 ∧ first.getY - second.getY = 0) := by
    rintro first second different ⟨sameX, sameY⟩
    exact different (Square.eq_of_coordinates (Int.sub_eq_zero.mp sameX) (Int.sub_eq_zero.mp sameY))
  exact lineOf_eq_iff line lineToo (nonzero different) (nonzero differentToo)

/-! ### Goals -/

/-- The goal opposite to the one where `hasNetwork` starts. -/
def lastGoal (color : Color) : Goal :=
  match color with
  | .white => .right
  | _ => .bottom

theorem firstGoal_ne_lastGoal (color : Color) : firstGoal color ≠ lastGoal color := by
  cases color <;> decide

theorem firstGoal_ne_nowhere (color : Color) : firstGoal color ≠ .nowhere := by
  cases color <;> decide

theorem lastGoal_ne_nowhere (color : Color) : lastGoal color ≠ .nowhere := by
  cases color <;> decide

theorem endGoal_new (color : Color) : (Path.new (firstGoal color)).endGoal = lastGoal color := by
  cases color <;> rfl

theorem getGoal_eq_nowhere {square : Square} : square.getGoal = .nowhere <-> ¬ InGoal square := by
  have size : (DIMENSION : Int) - 1 = 7 := rfl
  unfold Square.getGoal InGoal
  rw [size]
  split_ifs <;> simp_all

/-- A chip that obeys the rules is in a goal of its colour only. -/
theorem getGoal_own (sound : board.Sound) (chip : color ≠ .empty) {square : Square}
    (own : board.color square = color) :
    (square.getGoal = firstGoal color <-> goalCoordinate color square = 0) ∧
      (square.getGoal = lastGoal color <-> goalCoordinate color square = 7) := by
  have allowed := sound.goals square
  have size : (DIMENSION : Int) - 1 = 7 := rfl
  rw [own] at allowed
  cases color with
  | empty => exact absurd rfl chip
  | white =>
    unfold Square.getGoal goalCoordinate firstGoal lastGoal
    rw [size]
    split_ifs <;> simp_all
  | black =>
    simp only [notInOppositeGoal, size, Bool.not_eq_true', Bool.or_eq_false_iff,
      beq_eq_false_iff_ne] at allowed
    unfold Square.getGoal goalCoordinate firstGoal lastGoal
    rw [size, if_neg allowed.1, if_neg allowed.2]
    split_ifs <;> simp_all

/-- The squares of the first goal are all that a chip in it can be on. -/
theorem mem_goals (sound : board.Sound) (chip : color ≠ .empty) {square : Square}
    (own : board.color square = color) :
    square ∈ goals (firstGoal color) <-> square.getGoal = firstGoal color := by
  rw [(getGoal_own sound chip own).1]
  have corner := sound.corners (show board.Occupied square from fun empty => chip (own ▸ empty))
  have lists : ∀ square : Square, notInCorner square.getX square.getY = true ->
      (square ∈ goals .left <-> square.getX = 0) ∧ (square ∈ goals .top <-> square.getY = 0) := by
    decide +kernel
  cases color with
  | empty => exact absurd rfl chip
  | white => exact (lists square corner).1
  | black => exact (lists square corner).2

/-! ### Networks are paths that have reached the goal -/

/-- What is behind a square of a network, up to it, is a path. -/
theorem IsNetwork.grown (sound : board.Sound) (chip : color ≠ .empty)
    (network : IsNetwork board color chips) {first last : Square}
    (ends : chips.head? = some first ∧ chips.getLast? = some last)
    (reached : goalCoordinate color first = 7) (started : goalCoordinate color last = 0)
    {before stack : List Square} (whole : chips = before ++ stack) (nonempty : stack ≠ []) :
    Grown board color (firstGoal color) (lastGoal color) stack := by
  have goal := fun {square} member => @getGoal_own board color sound chip square
    (network.own square member)
  -- a square that is neither the first nor the last
  have inside : ∀ {earlier later : List Square} {square : Square},
      chips = earlier ++ square :: later -> earlier ≠ [] -> later ≠ [] ->
        square.getGoal = .nowhere :=
    fun split notFirst notLast => getGoal_eq_nowhere.mpr
      (network.inner _ _ _ split notFirst notLast)
  have isLast : ∀ {earlier : List Square} {square : Square}, chips = earlier ++ [square] ->
      square.getGoal = firstGoal color := by
    intro earlier square split
    have same : square = last := by
      have final := ends.2
      rw [split, getLast?_concat] at final
      exact Option.some.inj final
    rw [(goal (by simp [split])).1, same]
    exact started
  induction stack generalizing before with
  | nil => exact absurd rfl nonempty
  | cons square rest ih =>
    have own : board.color square = color := network.own square (by simp [whole])
    cases rest with
    | nil => exact ⟨own, isLast whole⟩
    | cons previous rest =>
      have split : chips = (before ++ [square]) ++ previous :: rest := by
        rw [whole, append_assoc, singleton_append]
      have ownToo : board.color previous = color := network.own previous (by simp [whole])
      have distinct := network.distinct
      rw [whole] at distinct
      have connected : ∃ direction, board.FirstOccupied previous direction square := by
        apply firstOccupied_symm _ (network.connected before square previous rest whole)
        rw [Board.Occupied, own]
        exact chip
      refine ⟨ih split (cons_ne_nil _ _), ?_, own, ?_, connected, ?_, ?_⟩
      · cases rest with
        | nil =>
          rw [isLast split]
          exact firstGoal_ne_lastGoal color
        | cons _ _ =>
          rw [inside split (by simp) (cons_ne_nil _ _)]
          exact (lastGoal_ne_nowhere color).symm
      · exact (nodup_cons.mp (nodup_append.mp distinct).2.1).1
      · intro third isThird
        cases rest with
        | nil => cases isThird
        | cons other rest =>
          cases isThird
          rcases connected with ⟨direction, ahead⟩
          rcases firstOccupied_symm (by rw [Board.Occupied, ownToo]; exact chip)
            (network.connected (before ++ [square]) previous third rest split) with
            ⟨directionToo, aheadToo⟩
          have behind := (nodup_append.mp distinct).2.1
          rw [ne_eq, getDirection_eq_iff (getDirection_firstOccupied ahead)
            (getDirection_firstOccupied aheadToo)
            (fun same => (nodup_cons.mp behind).1 (by simp [same]))
            (fun same => (nodup_cons.mp (nodup_cons.mp behind).2).1 (by simp [same]))]
          exact network.turning before square previous third rest whole
      · cases before with
        | nil =>
          right
          have same : square = first := by
            have start := ends.1
            rw [whole] at start
            exact Option.some.inj start
          refine ⟨?_, ?_⟩
          · rw [(goal (by simp [whole])).2, same]
            exact reached
          · have long := network.long
            rw [whole, nil_append, length_cons] at long
            omega
        | cons _ _ => exact .inl (inside whole (cons_ne_nil _ _) (cons_ne_nil _ _))

section

variable {stack : List Square} (grown : Grown board color (firstGoal color) (lastGoal color) stack)

include grown

theorem Grown.own {square : Square} (member : square ∈ stack) : board.color square = color := by
  induction stack with
  | nil => cases member
  | cons top rest ih =>
    cases rest with
    | nil =>
      rw [mem_singleton.mp member]
      exact grown.1
    | cons previous rest =>
      rcases mem_cons.mp member with same | later
      · rw [same]
        exact grown.2.2.1
      · exact ih grown.1 later

theorem Grown.start : ∃ start, stack.getLast? = some start ∧ start.getGoal = firstGoal color := by
  induction stack with
  | nil => exact absurd grown id
  | cons top rest ih =>
    cases rest with
    | nil => exact ⟨top, rfl, grown.2⟩
    | cons previous rest =>
      rw [getLast?_cons_cons]
      exact ih grown.1

/-- A path that has reached the goal is a network. -/
theorem Grown.isNetwork (sound : board.Sound) (chip : color ≠ .empty) {last : Square}
    (isLast : stack.head? = some last) (reached : last.getGoal = lastGoal color) :
    IsNetwork board color stack where
  long := by
    cases stack with
    | nil => cases isLast
    | cons top rest =>
      cases isLast
      cases rest with
      | nil => exact absurd (grown.2.symm.trans reached) (firstGoal_ne_lastGoal color)
      | cons previous rest =>
        rcases grown.2.2.2.2.2.2 with inside | ⟨_, long⟩
        · exact absurd (reached.symm.trans inside) (lastGoal_ne_nowhere color)
        · rw [length_cons]
          omega
  distinct := grown.nodup
  own _ member := grown.own member
  ends := by
    rcases grown.start with ⟨start, isStart, started⟩
    refine ⟨last, start, ⟨isLast, isStart⟩, .inr ⟨?_, ?_⟩⟩
    · rw [<- (getGoal_own sound chip (grown.own (mem_of_head? isLast))).2]
      exact reached
    · rw [<- (getGoal_own sound chip (grown.own (mem_of_getLast? isStart))).1]
      exact started
  inner before square after whole notFirst notLast := by
    rw [<- getGoal_eq_nowhere]
    rcases eq_nil_or_concat before with none | ⟨earlier, next, same⟩
    · exact absurd none notFirst
    · cases after with
      | nil => exact absurd rfl notLast
      | cons previous rest =>
        rw [same, concat_eq_append, append_assoc, singleton_append] at whole
        have upTo := (whole ▸ grown).suffix (cons_ne_nil next _)
        exact upTo.1.2.2.2.2.2.2.resolve_right fun ends => upTo.2.1 ends.1
  connected before square next after whole := by
    have upTo := (whole ▸ grown).suffix (cons_ne_nil square _)
    refine firstOccupied_symm ?_ upTo.2.2.2.2.1
    rw [Board.Occupied, (upTo.1).own mem_cons_self]
    exact chip
  turning before first second third after whole := by
    have upTo := (whole ▸ grown).suffix (cons_ne_nil first _)
    rcases upTo.2.2.2.2.1 with ⟨direction, ahead⟩
    rcases upTo.1.2.2.2.2.1 with ⟨directionToo, aheadToo⟩
    rw [<- getDirection_eq_iff (getDirection_firstOccupied ahead)
      (getDirection_firstOccupied aheadToo)
      (fun same => upTo.2.2.2.1 (by simp [same]))
      (fun same => upTo.1.2.2.2.1 (by simp [same]))]
    exact upTo.2.2.2.2.2.1 third rfl

end

theorem exists_network_iff (sound : board.Sound) (chip : color ≠ .empty) :
    (∃ chips, IsNetwork board color chips) <->
      ∃ stack last, Grown board color (firstGoal color) (lastGoal color) stack ∧
        stack.head? = some last ∧ last.getGoal = lastGoal color := by
  constructor
  · rintro ⟨chips, network⟩
    -- the stack of the search has the start at its bottom
    have oriented : ∃ chips, IsNetwork board color chips ∧ ∃ first last,
        (chips.head? = some first ∧ chips.getLast? = some last) ∧
          goalCoordinate color first = 7 ∧ goalCoordinate color last = 0 := by
      rcases network.ends with ⟨first, last, ends, ⟨low, high⟩ | turned⟩
      · refine ⟨chips.reverse, network.reverse chip, last, first, ⟨?_, ?_⟩, high, low⟩
        · rw [head?_reverse, ends.2]
        · rw [getLast?_reverse, ends.1]
      · exact ⟨chips, network, first, last, ends, turned⟩
    rcases oriented with ⟨stack, stacked, first, last, ends, reached, started⟩
    have nonempty : stack ≠ [] := by
      rintro rfl
      cases ends.1
    refine ⟨stack, first, stacked.grown sound chip ends reached started (nil_append _).symm
      nonempty, ends.1, ?_⟩
    rw [(getGoal_own sound chip (stacked.own first (mem_of_head? ends.1))).2]
    exact reached
  · rintro ⟨stack, last, grown, isLast, reached⟩
    exact ⟨stack, grown.isNetwork sound chip isLast reached⟩

end

/-! ## What `hasNetwork` answers -/

section

variable {board : Board} {color : Color}

theorem endGoal_ne (goal : Goal) (proper : goal ≠ .nowhere) :
    (Path.new goal).endGoal ≠ goal ∧ (Path.new goal).endGoal ≠ .nowhere := by
  cases goal <;> first | exact absurd rfl proper | decide

/-- The first square of a path is always appended. -/
theorem searching_start (sound : board.Sound) {start : Square} (own : board.color start = color)
    (proper : start.getGoal ≠ .nowhere) :
    (Path.new start.getGoal).append board start =
        (true, (Path.new start.getGoal).grow start, board.setVisited start true) ∧
      Searching board color ((Path.new start.getGoal).grow start)
        (board.setVisited start true) := by
  rcases endGoal_ne start.getGoal proper with ⟨unreached, possible⟩
  have can : (Path.new start.getGoal).canAppend board start = true := by
    have empty : (Path.new start.getGoal).positions = [] := rfl
    have same : (Path.new start.getGoal).startGoal = start.getGoal := rfl
    have incomplete : (Path.new start.getGoal).network = false := rfl
    rw [Path.canAppend, empty, same, incomplete, sound.unvisited]
    simp [possible, unreached.symm, Path.turns]
  refine ⟨Path.append_of_canAppend can, ?_, ?_, ?_, ?_, ?_⟩
  · exact board.color_setVisited start true
  · intro square
    change _ <-> square ∈ [start]
    rw [Board.visited_setVisited, mem_singleton]
    by_cases same : square = start
    · simp [same]
    · simp [same, sound.unvisited]
  · exact ⟨own, rfl⟩
  · change (false || decide (start.getGoal = (Path.new start.getGoal).endGoal)) = true <-> _
    rw [Bool.false_or, decide_eq_true_eq]
    constructor
    · intro reached
      exact ⟨start, rfl, reached⟩
    · rintro ⟨last, isLast, reached⟩
      cases isLast
      exact reached
  · exact possible

theorem searchStarts_spec (sound : board.Sound) (starts : List Square)
    (inGoal : ∀ start, start ∈ starts -> board.color start = color ->
      start.getGoal = firstGoal color) :
    ∃ found, board.searchStarts color (firstGoal color) 64 starts = some (found, board) ∧
      (found = true <-> ∃ start, start ∈ starts ∧ board.color start = color ∧
        Completes board color ((Path.new (firstGoal color)).grow start)) := by
  induction starts with
  | nil => exact ⟨false, rfl, by simp⟩
  | cons start starts ih =>
    rcases ih fun other member => inGoal other (mem_cons_of_mem _ member) with
      ⟨later, done, right⟩
    rw [Board.searchStarts]
    by_cases own : board.color start = color
    · have started := inGoal start mem_cons_self own
      have proper : start.getGoal ≠ .nowhere := started ▸ firstGoal_ne_nowhere color
      rcases searching_start sound own proper with ⟨appended, searching⟩
      rw [started] at appended searching
      rcases searching.dfsFull (Nat.le_refl (64 + 1)) with ⟨found, searched, rightHere⟩
      have back : ((Path.new (firstGoal color)).grow start).pop (board.setVisited start true) =
          (Path.new (firstGoal color), board) :=
        Path.pop_appended (sound.unvisited start) rfl
      rw [if_pos own, appended]
      simp only [searched, back]
      cases found with
      | true =>
        refine ⟨true, rfl, fun _ => ?_, fun _ => rfl⟩
        exact ⟨start, mem_cons_self, own, rightHere.mp rfl⟩
      | false =>
        refine ⟨later, done, ?_⟩
        rw [right]
        refine (exists_mem_cons_iff ?_).symm
        rintro other rfl ⟨_, completes⟩
        exact Bool.false_ne_true (rightHere.mpr completes)
    · rw [if_neg own]
      refine ⟨later, done, ?_⟩
      rw [right]
      refine (exists_mem_cons_iff ?_).symm
      rintro other rfl ⟨isOwn, _⟩
      exact own isOwn

/-- On a sound board the search ends, leaves the board as it was, and finds a network if there
is one. -/
theorem hasNetwork_spec (sound : board.Sound) (chip : color ≠ .empty) :
    ∃ found, board.hasNetwork color = some (found, board) ∧
      (found = true <-> ∃ chips, IsNetwork board color chips) := by
  rcases searchStarts_spec sound (goals (firstGoal color))
    (fun start member own => (mem_goals sound chip own).mp member) with ⟨found, done, right⟩
  refine ⟨found, done, ?_⟩
  rw [right, exists_network_iff sound chip]
  have ending := endGoal_new color
  constructor
  · rintro ⟨start, _, _, more, last, grown, isLast, reached⟩
    refine ⟨_, last, ?_, isLast, reached.trans ending⟩
    rw [<- ending]
    exact grown
  · rintro ⟨stack, last, grown, isLast, reached⟩
    rcases grown.start with ⟨start, isStart, started⟩
    have own := grown.own (mem_of_getLast? isStart)
    rcases getLast?_eq_some_iff.mp isStart with ⟨more, rfl⟩
    refine ⟨start, (mem_goals sound chip own).mpr started, own, more, last, ?_, isLast,
      reached.trans ending.symm⟩
    change Grown board color (firstGoal color) (Path.new (firstGoal color)).endGoal
      (more ++ [start])
    rw [ending]
    exact grown

/-- After every history of placing and removing chips, `hasNetwork` answers whether a network of
the colour is on the board, and no square is marked as visited afterwards. -/
theorem hasNetwork_iff (calls : List Call) :
    ∃ board, Board.afterCalls calls = some board ∧
      ∀ color, color ≠ .empty -> ∃ found after,
        board.hasNetwork color = some (found, after) ∧
        (found = true <-> ∃ chips, IsNetwork board color chips) ∧
        (after = board ∧ ∀ square, (after.grid square).visited = false) := by
  rcases Board.sound_afterCalls calls with ⟨board, done, sound⟩
  refine ⟨board, done, fun color chip => ?_⟩
  rcases hasNetwork_spec sound chip with ⟨found, searched, right⟩
  exact ⟨found, board, searched, right, rfl, sound.unvisited⟩

end

end NetworkGame
end Codebank
