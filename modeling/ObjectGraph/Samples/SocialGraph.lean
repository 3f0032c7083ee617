/-
# A social graph to try things out

Users, their friends and the reviews they wrote.  User `n` is called `idn`, is 16 to 18 years
old, has the friends `3n` to `3n + 2` and wrote the reviews `3n + 300` to `3n + 302`.
-/
import ObjectGraph.Memory.Resolver

namespace ObjectGraph.SocialGraph

/-! ### Types -/

/-- Users, their friends and their reviews. -/
def user : ObjectType :=
  (ObjectType.named "User"
    |>.withField "id" .bigint false
    |>.withField "name" .text true
    |>.withField "age" .integer true
    |>.withEdge "friends"
      { target := "User", cardinality := .many,
        join := .through none "friendships" "user_id" "friend_id" }
    |>.withEdge "reviews"
      { target := "Review", cardinality := .many,
        join := .columns (.ofList [("id", "author_id")]) })

/-- Reviews and their authors. -/
def review : ObjectType :=
  (ObjectType.named "Review"
    |>.withField "id" .bigint false
    |>.withField "business" .text true
    |>.withField "rating" .integer true
    |>.withField "author_id" .bigint true
    |>.withEdge "author"
      { target := "User", cardinality := .one,
        join := .columns (.ofList [("author_id", "id")]) })

/-- The types of the social graph. -/
def catalog : Catalog :=
  Catalog.empty |>.withType "User" user |>.withType "Review" review

/-! ### Objects -/

/-- The identity of the first review. -/
def firstReview : Int := 300

/-- The author of a review. -/
def authorOf (review : Int) : Int := (review - firstReview) / 3

/-- The user of an identity. -/
def userItem (id : Int) : Item :=
  .ofMembers
    [("id", .int id), ("name", .string ("id" ++ toString id)), ("age", .int (16 + id % 3))]

/-- The review of an identity. -/
def reviewItem (id : Int) : Item :=
  .ofMembers
    [("id", .int id), ("business", .string ("business" ++ toString id)),
     ("rating", .int (1 + id % 5)), ("author_id", .int (authorOf id))]

/-- Whether a graph of so many users has the user. -/
def hasUser (users id : Int) : Bool := 0 ≤ id && id < users

/-- Whether a graph of so many users has the review. -/
def hasReview (users id : Int) : Bool :=
  firstReview ≤ id && hasUser users (authorOf id)

/-- Integers that follow each other. -/
def range (first : Int) (count : Nat) : List Int64 :=
  (List.range count).map fun n => Int64.ofInt (first + Int.ofNat n)

/-- The integer an object holds in a field. -/
def integerOf (item : Item) (field : String) : Except String Int :=
  let integer? : Json → Option Int64
    | .number n => n.int64?
    | _ => none
  match (item.get? field).bind integer? with
  | some i => .ok i.toInt
  | none => .error ("the object has no integer '" ++ field ++ "'")

/-- The error for a type that the graph does not have. -/
def unknownType {α : Type} (type : String) : Except String α :=
  .error ("unknown object type '" ++ type ++ "'")

/-- The object of an identity, if the graph has it. -/
def resolveObject (users : Int) (type : String) (id : Int64) : Except String (Option Item) :=
  match type with
  | "User" => .ok (if hasUser users id.toInt then some (userItem id.toInt) else none)
  | "Review" => .ok (if hasReview users id.toInt then some (reviewItem id.toInt) else none)
  | other => unknownType other

/-- The identities of the objects that an edge of an object leads to. -/
def resolveEdge (type : String) (item : Item) (edge : String) : Except String (List Int64) :=
  match type, edge with
  | "User", "friends" => do return range (3 * (← integerOf item "id")) 3
  | "User", "reviews" => do return range (3 * (← integerOf item "id") + firstReview) 3
  | "Review", "author" => do return [Int64.ofInt (← integerOf item "author_id")]
  | _, _ => .error ("unknown edge '" ++ edge ++ "' of object type '" ++ type ++ "'")

/-- The identities of all objects of a type. -/
def resolveAll (users : Int) (type : String) : Except String (List Int64) :=
  match type with
  | "User" => .ok (range 0 users.toNat)
  | "Review" => .ok (range firstReview (3 * users.toNat))
  | other => unknownType other

/-- The graph of the given number of users and of the reviews they wrote. -/
def resolver (users : Int) : Resolver :=
  .stable (resolveObject users) resolveEdge (some (resolveAll users))

end ObjectGraph.SocialGraph
