import FrontendAudit.Gate.Format
import FrontendAudit.Report.Name
import FrontendAudit.Response

/-!
# The report as a page

A page with the counts of all categories and, for each, a table of its issues, cut off after a
number of rows. The page is a sequence of pieces: markup, which is the same whatever was found, and
data, which is written with references for all characters that could be taken for markup.
-/

namespace FrontendAudit.Report

/-- A piece of a page. -/
inductive Piece where
  | markup (s : String)
  | data (s : String)
  deriving DecidableEq, Repr

/-- A character of data as it is written. -/
def dataChar : Char → List Char
  | '&' => "&amp;".toList
  | '<' => "&lt;".toList
  | '>' => "&gt;".toList
  | '"' => "&quot;".toList
  | '\'' => "&#x27;".toList
  | c => [c]

/-- A piece as it is written. -/
def Piece.render : Piece → List Char
  | markup s => s.toList
  | data s => s.toList.flatMap dataChar

/-- The text of a page. -/
def renderPieces (pieces : List Piece) : String :=
  String.ofList (pieces.flatMap Piece.render)

/-- How many issues of a category a page shows. -/
def rowLimit : Nat := 200

/-- The beginning of every page. -/
def pageHead : String :=
  "<!DOCTYPE html>\n<html lang=\"en\">\n<head>\n<meta charset=\"utf-8\">\n" ++
  "<title>UI Code Audit Report</title>\n<style>\n" ++
  "body \x7b font-family: system-ui, sans-serif; margin: 2rem; color: #1f2328; \x7d\n" ++
  "table \x7b border-collapse: collapse; width: 100%; margin-bottom: 2rem; \x7d\n" ++
  "th, td \x7b border: 1px solid #d0d7de; padding: 0.4rem 0.6rem; text-align: left; " ++
  "vertical-align: top; \x7d\n" ++
  "th \x7b background: #f6f8fa; \x7d\n" ++
  ".high \x7b color: #b42318; font-weight: 600; \x7d\n" ++
  ".medium \x7b color: #9a6700; \x7d\n" ++
  ".low \x7b color: #57606a; \x7d\n" ++
  "pre \x7b margin: 0; white-space: pre-wrap; font-size: 0.85em; \x7d\n" ++
  "</style>\n</head>\n<body>\n<main>\n"

/-- The end of every page. -/
def pageTail : String := "</main>\n</body>\n</html>\n"

/-- The cells of a row of counts, in elements of a name. -/
def countCells (element : String) (c : Counts) : List Piece :=
  [c.high, c.medium, c.low, c.total].flatMap fun n =>
    [.markup ("<" ++ element ++ ">"), .data (toString n), .markup ("</" ++ element ++ ">")]

/-- The head of a page: what was scanned. -/
def titlePieces (r : Response) : List Piece :=
  [.markup pageHead, .markup "<h1>UI Code Audit Report</h1>\n", .markup "<p>Scan <code>",
    .data r.scanId, .markup "</code>"] ++
  (match nonempty? r.projectKind with
    | some kind => [.markup ", project type <strong>", .data kind, .markup "</strong>"]
    | none => []) ++
  [.markup "</p>\n"]

/-- The table of counts. -/
def summaryPieces (r : Response) : List Piece :=
  [.markup "<h2>Summary</h2>\n<table>\n",
    .markup ("<tr><th>Category</th><th>High</th><th>Medium</th><th>Low</th>" ++
      "<th>Total</th></tr>\n")] ++
  r.categories.flatMap (fun (category, result) =>
    [.markup "<tr><td>", .data category, .markup "</td>"] ++ countCells "td" result.counts ++
      [.markup "</tr>\n"]) ++
  [.markup "<tr><th>All</th>"] ++ countCells "th" r.summary ++ [.markup "</tr>\n</table>\n"]

/-- What came of the gate. -/
def gatePieces (r : Response) : List Piece :=
  match r.gate with
  | some g =>
    [.markup "<p>CI quality gate (", .data g.platform, .markup "): <strong>",
      .markup (if g.passed then "passed" else "failed"), .markup "</strong></p>\n"]
  | none => []

/-- The row of an issue. -/
def rowPieces (f : Finding) : List Piece :=
  [.markup "<tr><td class=\"", .data f.severity.name, .markup "\">", .data f.severity.name,
    .markup "</td><td>", .data ((nonempty? f.rule).getD f.kind),
    .markup "</td><td>", .data (Junit.location f),
    .markup "</td><td>", .data f.message,
    .markup "</td><td><pre>", .data (f.code.getD ""),
    .markup "</pre></td></tr>\n"]

/-- The note that a table is cut off. -/
def overflowPieces (category : String) (issues : Nat) : List Piece :=
  if rowLimit < issues then
    [.markup "<p>", .data (toString (issues - rowLimit)), .markup " more issues in ",
      .data ((Json.lookup? category categoryNames).getD category), .markup ".</p>\n"]
  else []

/-- The issues of a category. -/
def categoryPieces (category : String) (result : AuditResult) : List Piece :=
  [.markup "<h2>", .data category, .markup "</h2>\n"] ++
  if result.issues.isEmpty then [.markup "<p>No issues found.</p>\n"]
  else
    [.markup ("<table>\n<tr><th>Severity</th><th>Type</th><th>Location</th><th>Message</th>" ++
      "<th>Code</th></tr>\n")] ++
    (result.issues.take rowLimit).flatMap rowPieces ++
    [.markup "</table>\n"] ++
    overflowPieces category result.issues.length

/-- The pieces of the page of a response. -/
def pagePieces (r : Response) : List Piece :=
  titlePieces r ++ summaryPieces r ++ gatePieces r ++
    r.categories.flatMap (fun (category, result) => categoryPieces category result) ++
    [.markup pageTail]

/-- The page of a response. -/
def page (r : Response) : String := renderPieces (pagePieces r)

end FrontendAudit.Report
