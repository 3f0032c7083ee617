/-
# Names in snake case

`MockUser` becomes `mock_user` and `bestFriends` becomes `BEST_FRIENDS`.  A name is cut into
words at `_`, `-` and spaces, which are dropped, and between letters and digits whose case
changes: lower to upper, upper to digit, digit to upper, digit to lower, lower to digit, and
before the last capital of an acronym that a lower case letter follows (`HTTPServer` holds
`HTTP` and `Server`).
-/
import ObjectGraph.Text.Case
import ObjectGraph.Text.Cased
import ObjectGraph.Text.Cluster

namespace ObjectGraph.Text

namespace Cluster

/-- The cluster in lower case. -/
def lower (cluster : Cluster) : List Char := cluster.flatMap lowercase

/-- The cluster in upper case. -/
def upper (cluster : Cluster) : List Char := cluster.flatMap uppercase

/-- Whether the cluster has two cases and is in the upper one. -/
def isUpper (cluster : Cluster) : Bool :=
  cluster.upper != cluster.lower && cluster == cluster.upper

/-- Whether the cluster has two cases and is in the lower one. -/
def isLower (cluster : Cluster) : Bool :=
  cluster.upper != cluster.lower && cluster == cluster.lower

/-- Whether a cluster is made of ASCII digits. -/
def isDigit (cluster : Cluster) : Bool :=
  cluster.all fun c => isAscii c && c.isDigit

/-- Whether the cluster separates words and belongs to none. -/
def isDelimiter (cluster : Cluster) : Bool :=
  cluster == ['_'] || cluster == ['-'] || cluster == [' ']

/-- Whether a word ends between two neighbours because of what they are. -/
def changesCase (left right : Cluster) : Bool :=
  (left.isLower && right.isUpper) || (left.isUpper && right.isDigit)
    || (left.isDigit && right.isUpper) || (left.isDigit && right.isLower)
    || (left.isLower && right.isDigit)

/-- Whether `middle` is the last capital of an acronym and begins the next word. -/
def endsAcronym (left middle : Cluster) (right : Option Cluster) : Bool :=
  left.isUpper && middle.isUpper && right.any isLower

end Cluster

/-- Put a cluster in front of the first word. -/
def prependToWord (cluster : Cluster) : List (List Char) → List (List Char)
  | [] => [cluster]
  | word :: words => (cluster ++ word) :: words

/-- The words of a sequence of clusters; neighbouring delimiters leave empty words between
them. -/
def splitWords : List Cluster → List (List Char)
  | [] => [[]]
  | cluster :: rest =>
    let words := splitWords rest
    if cluster.isDelimiter then [] :: words
    else
      match rest with
      | next :: more =>
        if !next.isDelimiter
            && (cluster.changesCase next || Cluster.endsAcronym cluster next more.head?) then
          cluster :: words
        else prependToWord cluster words
      | [] => prependToWord cluster words

/-- The words of a name. -/
def wordsOf (name : String) : List (List Char) :=
  (splitWords (clusters name.toList)).filter (· ≠ [])

/-- The lower case of a word.  A sigma that ends the word takes its final form. -/
def lowerWord (word : List Char) : List Char :=
  go [] word
where
  go (before : List Char) : List Char → List Char
    | [] => []
    | c :: rest =>
      (if c = 'Σ' ∧ nextIsCased before ∧ ¬ nextIsCased rest then ['ς'] else lowercase c)
        ++ go (c :: before) rest

/-- A name in lower case words joined by underscores. -/
def snakeCase (name : String) : String :=
  "_".intercalate ((wordsOf name).map fun word => String.ofList (lowerWord word))

/-- A name in upper case words joined by underscores. -/
def upperSnakeCase (name : String) : String :=
  "_".intercalate ((wordsOf name).map fun word => String.ofList (word.flatMap uppercase))

end ObjectGraph.Text
