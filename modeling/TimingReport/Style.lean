/-!
# The style sheet of the page
-/

namespace TimingReport.Style

/-- A rule of a style sheet. -/
structure Rule where
  selector : String
  declarations : List (String × String)
  /-- The rule is written on one line. -/
  brief : Bool := false

/-- A declaration as text. -/
def declarationText (declaration : String × String) : String :=
  declaration.1 ++ ": " ++ declaration.2 ++ ";"

/-- A rule as text, on lines of its own. -/
def Rule.text (rule : Rule) : String :=
  let declarations := rule.declarations.map declarationText
  if rule.brief then
    "        " ++ rule.selector ++ " \x7b " ++ " ".intercalate declarations ++ " \x7d\n"
  else
    "        " ++ rule.selector ++ " \x7b\n"
      ++ String.join (declarations.map fun d => "            " ++ d ++ "\n")
      ++ "        \x7d\n"

/-- The rules of the page. -/
def rules : List Rule := [
  { selector := "body"
    declarations := [
      ("font-family", "'Segoe UI', Tahoma, Geneva, Verdana, sans-serif"),
      ("margin", "0"),
      ("padding", "20px"),
      ("background-color", "#f5f5f5")] },
  { selector := ".container"
    declarations := [
      ("max-width", "1200px"),
      ("margin", "0 auto"),
      ("background", "white"),
      ("padding", "30px"),
      ("border-radius", "10px"),
      ("box-shadow", "0 2px 10px rgba(0,0,0,0.1)")] },
  { selector := "h1"
    declarations := [
      ("color", "#2c3e50"),
      ("text-align", "center"),
      ("margin-bottom", "30px"),
      ("border-bottom", "3px solid #3498db"),
      ("padding-bottom", "10px")] },
  { selector := "h2"
    declarations := [
      ("color", "#34495e"),
      ("border-left", "4px solid #3498db"),
      ("padding-left", "15px"),
      ("margin-top", "30px")] },
  { selector := ".overview"
    declarations := [
      ("background", "#ecf0f1"),
      ("padding", "20px"),
      ("border-radius", "8px"),
      ("margin-bottom", "30px")] },
  { selector := ".info-grid, .summary-grid"
    declarations := [
      ("display", "grid"),
      ("grid-template-columns", "repeat(auto-fit, minmax(200px, 1fr))"),
      ("gap", "15px"),
      ("margin-top", "15px")] },
  { selector := ".info-box"
    declarations := [
      ("background", "#f8f9fa"),
      ("padding", "15px"),
      ("border-radius", "5px"),
      ("border-left", "4px solid #3498db")] },
  { selector := ".summary-item"
    declarations := [
      ("background", "white"),
      ("padding", "15px"),
      ("border-radius", "5px"),
      ("text-align", "center"),
      ("box-shadow", "0 1px 3px rgba(0,0,0,0.1)")] },
  { selector := ".summary-item strong"
    declarations := [
      ("display", "block"),
      ("color", "#2c3e50"),
      ("font-size", "1.2em")] },
  { selector := ".category-section"
    declarations := [
      ("margin", "30px 0"),
      ("padding", "20px"),
      ("border", "1px solid #e0e0e0"),
      ("border-radius", "8px")] },
  { selector := "table"
    declarations := [
      ("width", "100%"),
      ("border-collapse", "collapse"),
      ("margin", "20px 0"),
      ("background", "white")] },
  { selector := "th, td"
    declarations := [
      ("padding", "12px"),
      ("text-align", "left"),
      ("border-bottom", "1px solid #ddd")] },
  { selector := "th"
    declarations := [
      ("background-color", "#3498db"),
      ("color", "white")] },
  { selector := "tr:hover"
    declarations := [
      ("background-color", "#f8f9fa")]
    brief := true },
  { selector := ".benchmark-name"
    declarations := [
      ("font-family", "'Courier New', monospace"),
      ("font-size", "0.9em")]
    brief := true },
  { selector := ".time-cell"
    declarations := [
      ("font-family", "'Courier New', monospace"),
      ("font-weight", "bold")]
    brief := true },
  { selector := ".good"
    declarations := [
      ("color", "#27ae60")]
    brief := true },
  { selector := ".warning"
    declarations := [
      ("color", "#f39c12")]
    brief := true },
  { selector := ".danger"
    declarations := [
      ("color", "#e74c3c")]
    brief := true },
  { selector := ".footer"
    declarations := [
      ("text-align", "center"),
      ("margin-top", "40px"),
      ("padding", "20px"),
      ("background", "#f8f9fa"),
      ("border-radius", "5px"),
      ("color", "#666")] }]

/-- The style sheet. -/
def sheet : String := "\n" ++ String.join (rules.map Rule.text)

end TimingReport.Style
