import SemanticLayer.Readers.Sql.Expression

set_option autoImplicit false

namespace SemanticLayer.Sql

/-- Words that begin a clause, and so are no names for a column or a table without `AS`. -/
def clauseWords : List String := [
  "WITH", "EXPLAIN", "ANALYZE", "SELECT", "WHERE", "GROUP", "SORT", "HAVING", "ORDER", "TOP",
  "LATERAL", "VIEW", "LIMIT", "OFFSET", "FETCH", "UNION", "EXCEPT", "INTERSECT", "CLUSTER",
  "DISTRIBUTE", "RETURNING", "END"]

def columnClauseWords : List String := clauseWords ++ ["FROM", "INTO"]

def tableClauseWords : List String := clauseWords ++ [
  "ON", "JOIN", "INNER", "CROSS", "FULL", "LEFT", "RIGHT", "NATURAL", "USING", "OUTER", "ANTI",
  "SEMI", "ASOF", "MATCH_CONDITION", "PIVOT", "UNPIVOT", "SET", "QUALIFY", "WINDOW",
  "FOR", "PARTITION", "PREWHERE", "SETTINGS", "FORMAT", "START", "CONNECT", "MATCH_RECOGNIZE",
  "SAMPLE", "TABLESAMPLE"]

/-- A name given with `AS`, or without it by a word that begins no clause, or none at all. -/
def givenName (reserved : List String) (ts : List Token) : Option (List Token) :=
  match keyword "AS" ts with
  | some rest => name rest
  | none =>
    match ts with
    | .word text :: rest => if reserved.contains (String.ofList text) then some ts else some rest
    | ts => some (optionally name ts)

def selectItem (expression : Reader) (ts : List Token) : Option (List Token) :=
  match wildcard ts with
  | some rest => some rest
  | none => do
    let rest ← expression ts
    if keyword "FROM" ts = some rest then none else givenName columnClauseWords rest

def quantifier (ts : List Token) : Option (List Token) :=
  match keyword "ALL" ts, keyword "DISTINCT" ts with
  | some rest, _ => if (keyword "DISTINCT" rest).isSome then none else some rest
  | none, some rest => if (keyword "ON" rest).isSome then none else some rest
  | none, none => some ts

/-- The number of rows, or the share of them, at the start of a select. -/
def rowLimit (ts : List Token) : Option (List Token) :=
  match keyword "TOP" ts with
  | none => some ts
  | some (.number (some n) :: rest) =>
    if n < UInt64.size then
      let rest := optionally (keyword "PERCENT") rest
      some (optionally (fun ts => (keyword "WITH" ts).bind (keyword "TIES")) rest)
    else none
  | some _ => none

/-- Words that are no name of a table where one begins, since they begin another kind of source. -/
def sourceWords : Dialect → List String
  | .generic => ["LATERAL", "TABLE", "UNNEST"]
  | .transact => ["LATERAL", "TABLE"]

def source (dialect : Dialect) (subquery : Reader) (ts : List Token) : Option (List Token) :=
  match mark '(' ts with
  | some rest => do givenName tableClauseWords (← mark ')' (← subquery rest))
  | none =>
    if (keywordOf (sourceWords dialect) ts).isSome then none
    else (path ts).bind (givenName tableClauseWords)

def select (dialect : Dialect) (expression subquery : Reader) (ts : List Token) :
    Option (List Token) := do
  let rest ← rowLimit (← quantifier (← keyword "SELECT" ts))
  let rest ← commaSeparated (selectItem expression) ts.length rest
  let rest ← clause "INTO" path rest
  let rest ← clause "FROM" (commaSeparated (source dialect subquery) ts.length) rest
  let rest ← clause "WHERE" expression rest
  clause "HAVING" expression rest

def unionKeyword (ts : List Token) : Option (List Token) := do
  let rest ← keyword "UNION" ts
  return optionally (fun ts => (keyword "ALL" ts).or (keyword "DISTINCT" ts)) rest

def union (select : Reader) : (budget : Nat) → Reader
  | 0, _ => none
  | budget + 1, ts => do
    let rest ← select ts
    match unionKeyword rest with
    | some rest => union select budget rest
    | none => return rest

def limitClause (expression : Reader) : Reader :=
  clause "LIMIT" fun ts => (keyword "ALL" ts).or (expression ts)

def offsetClause (expression : Reader) : Reader :=
  clause "OFFSET" fun ts => do
    let rest ← expression ts
    return optionally (keywordOf ["ROW", "ROWS"]) rest

/-- A query in which queries and expressions stand inside each other no deeper than a limit. -/
def query (dialect : Dialect) : (depth : Nat) → Reader
  | 0, _ => none
  | depth + 1, ts => do
    let expression := expression dialect depth 0
    let rest ← union (select dialect expression (query dialect depth)) ts.length ts
    offsetClause expression (← limitClause expression rest)

def maxQueryDepth : Nat := 49

/-- Whether tokens are queries with semicolons between them. What follows the word `END` after a
query is not looked at. -/
def areQueries (dialect : Dialect) : (budget : Nat) → List Token → Bool
  | 0, _ => false
  | _ + 1, [] => true
  | budget + 1, .mark ';' :: rest => areQueries dialect budget rest
  | budget + 1, ts =>
    match query dialect maxQueryDepth ts with
    | some (.mark ';' :: rest) => areQueries dialect budget rest
    | some [] => true
    | some rest => (keyword "END" rest).isSome
    | none => false

/-- Whether a text is made of queries of a dialect, or blank. -/
def isQueryOf (dialect : Dialect) (text : String) : Bool :=
  match tokenize dialect text with
  | some ts => areQueries dialect (ts.length + 1) ts
  | none => false

/-- Reads the queries that are common, and knows of no other statement. -/
instance : Parser where
  error? dialect text := if isQueryOf dialect text then none else some "not a query"

end SemanticLayer.Sql
