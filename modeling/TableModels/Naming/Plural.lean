import TableModels.Text.Case
import TableModels.Text.Scan

/-! English plurals read back to their singular.

The rules go from the particular to the general: words without a plural of their own, irregular
plurals, classical endings, the endings in -s that lose more or less than the s, and last the plain
-s. Lists of whole words are compared with the last word of the text, endings with the whole text. -/

namespace TableModels.Naming.Plural

open Text

/-- Plural and singular are one word, or the word is no plural at all. -/
def unchanged : List String := [
  "breeches", "britches", "pajamas", "pyjamas", "clippers", "gallows", "hijinks", "headquarters",
  "pliers", "scissors", "testes", "herpes", "pincers", "shears", "proceedings", "trousers", "cantus",
  "coitus", "nexus", "contretemps", "corps", "debris", "siemens", "mumps", "diabetes", "jackanapes",
  "series", "species", "subspecies", "rabies", "chassis", "innings", "news", "mews", "haggis", "tuna",
  "salmon", "mackerel", "trout", "bream", "sea-bass", "carp", "cod", "flounder", "whiting", "moose",
  "graffiti", "djinn", "offspring", "pence", "quid", "hertz", "status", "apparatus", "prospectus",
  "sinus", "hiatus", "impetus", "plexus"]

def unchangedEndings : List String := [
  "ois", "measles", "craft", "nese", "deer", "sheep", "pox", "fish", "ceps"]

def irregular : List (String × String) := [
  ("children", "child"), ("oxen", "ox"), ("loaves", "loaf"), ("hooves", "hoof"),
  ("beeves", "beef"), ("thieves", "thief"), ("monies", "money"), ("mongooses", "mongoose"),
  ("octopuses", "octopus"), ("corpora", "corpus"), ("corpuses", "corpus"), ("opera", "opus"),
  ("opuses", "opus"), ("genera", "genus"), ("atlases", "atlas"), ("yeses", "yes"), ("brethren", "brother"),
  ("infinities", "infinity"), ("genies", "genie"), ("ganglia", "ganglion"), ("turves", "turf"),
  ("numina", "numen"), ("occipita", "occiput"), ("roma", "rom"), ("carmina", "carmen"), ("dice", "die"),
  ("lice", "louse"), ("booklice", "booklouse"), ("woodlice", "woodlouse")]

/-- Endings that are replaced whatever stands before them. -/
def irregularEndings : List (String × String) := [
  ("men", "man"), ("mice", "mouse"), ("geese", "goose"), ("teeth", "tooth"), ("feet", "foot"),
  ("zoa", "zoon"), ("people", "person")]

/-- Words of Latin and Greek that keep their own plural. -/
def classical : List (String × String) := [
  ("codices", "codex"), ("murices", "murex"), ("silices", "silex"), ("radices", "radix"),
  ("helices", "helix"), ("bacteria", "bacterium"), ("agenda", "agendum"), ("desiderata", "desideratum"),
  ("errata", "erratum"), ("strata", "stratum"), ("data", "datum"), ("ova", "ovum"),
  ("extrema", "extremum"), ("candelabra", "candelabrum"), ("alumni", "alumnus"), ("alveoli", "alveolus"),
  ("bacilli", "bacillus"), ("bronchi", "bronchus"), ("loci", "locus"), ("nuclei", "nucleus"),
  ("stimuli", "stimulus"), ("menisci", "meniscus"), ("sarcophagi", "sarcophagus"),
  ("perihelia", "perihelion"), ("aphelia", "aphelion"), ("phenomena", "phenomenon"),
  ("prolegomena", "prolegomenon"), ("noumena", "noumenon"), ("organa", "organon"),
  ("asyndeta", "asyndeton"), ("hyperbata", "hyperbaton"), ("criteria", "criterion"),
  ("alumnae", "alumna"), ("algae", "alga"), ("vertebrae", "vertebra"), ("personae", "persona")]

/-- Plurals that lose their s only, though the ending suggests more. -/
def losesOnlyS : List String := [
  "abuses", "applauses", "blouses", "carouses", "causes", "chartreuses", "clauses", "contuses",
  "douses", "excuses", "fuses", "grouses", "hypotenuses", "masseuses", "menopauses", "misuses",
  "muses", "overuses", "pauses", "peruses", "profuses", "recluses", "reuses", "ruses", "souses",
  "spouses", "suffuses", "transfuses", "uses",
  "aeries", "baggies", "belies", "biggies", "birdies", "bogies", "bonnies", "boogies", "bookies",
  "bourgeoisies", "brownies", "budgies", "caddies", "calories", "camaraderies", "cockamamies",
  "collies", "cookies", "coolies", "cooties", "coteries", "crappies", "curies", "cutesies", "dogies",
  "eyries", "floozies", "footsies", "freebies", "goalies", "groupies", "hies", "jalousies", "junkies",
  "kiddies", "laddies", "lassies", "lies", "lingeries", "magpies", "menageries", "mommies", "movies",
  "neckties", "newbies", "nighties", "oldies", "organdies", "overlies", "pies", "pinkies", "pixies",
  "potpies", "prairies", "quickies", "reveries", "rookies", "rotisseries", "softies", "sorties",
  "stymies", "sweeties", "ties", "underlies", "unties", "veggies", "vies", "yuppies", "zombies",
  "aloes", "backhoes", "canoes", "does", "floes", "foes", "hoes", "mistletoes", "oboes", "pekoes",
  "roes", "sloes", "throes", "tiptoes", "toes", "woes",
  "bouillabaisses", "crevasses", "demitasses", "impasses", "mousses", "posses"]

/-- Words in -s whose plural adds -es. -/
def losesEs : List String := [
  "acropolises", "aegises", "aliases", "asbestoses", "bathoses", "biases", "bronchitises", "bursitises",
  "caddises", "cannabises", "canvases", "chaoses", "christmases", "cosmoses", "daises", "digitalises",
  "epidermises", "ethoses", "eyases", "gases", "glottises", "hubrises", "ibises", "lenses", "mantises",
  "marquises", "metropolises", "pathoses", "pelvises", "polises", "rhinoceroses", "sassafrases",
  "trellises", "irises", "quartzes", "topazes", "buzzes", "fizzes", "frizzes", "razzes"]

def losesOnlySBeforeCh : List String := [
  "aches", "attaches", "avalanches", "backaches", "bellyaches", "caches", "cartouches", "cliches",
  "creches", "douches", "earaches", "fiches", "headaches", "heartaches", "microfiches", "niches",
  "pastiches", "psyches", "quiches", "stomachaches", "toothaches", "tranches"]

def losesOnlySBeforeX : List String := ["annexes", "axes", "deluxes", "pickaxes"]

def losesOnlySAfterV : List String := [
  "interweaves", "weaves", "olives", "bivalves", "dissolves", "resolves", "salves", "twelves", "valves"]

/-- Plurals in -es of words in -is. -/
def fromIs : List String := [
  "amanuenses", "amniocenteses", "analyses", "antitheses", "apotheoses", "arterioscleroses",
  "atheroscleroses", "catalyses", "catharses", "chasses", "cirrhoses", "cocces", "crises", "diagnoses",
  "dialyses", "diereses", "electrolyses", "emphases", "exegeses", "geneses", "halitoses", "hydrolyses",
  "hypnoses", "hypotheses", "hystereses", "metamorphoses", "metastases", "misdiagnoses", "mitoses",
  "mononucleoses", "narcoses", "necroses", "nemeses", "neuroses", "oases", "osmoses", "osteoporoses",
  "paralyses", "parentheses", "parthenogeneses", "periphrases", "photosyntheses", "probosces",
  "prognoses", "prophylaxes", "prostheses", "preces", "psoriases", "psychoanalyses", "psychokineses",
  "psychoses", "scleroses", "scolioses", "sepses", "silicoses", "symbioses", "synopses", "syntheses",
  "telekineses", "theses", "thromboses", "tuberculoses", "urinalyses"]

private def dropEnd (count : Nat) (chars : List Char) : List Char := chars.take (chars.length - count)

private def endsWith (ending : String) (chars : List Char) : Bool := ending.toList.isSuffixOf chars

private def endsWithAny (endings : List String) (chars : List Char) : Bool := endings.any (endsWith · chars)

private def isVowel (c : Char) : Bool := ['a', 'e', 'i', 'o', 'u'].contains c

/-- The character at a distance from the end, the last one being at 1. -/
private def fromEnd (distance : Nat) (chars : List Char) : Option Char := chars.reverse[distance - 1]?

/-- The two letters before a final -ves. -/
private def beforeVes (lowered : List Char) : String := String.ofList ((lowered.drop (lowered.length - 5)).take 2)

/-- Plurals in -ves of words in -f and -fe. -/
private def fromVes? (word lowered : List Char) : Option (List Char) :=
  if endsWith "ves" lowered then
    let before := if lowered.length < 5 then "" else beforeVes lowered
    if ["el", "al", "ol", "ar"].contains before then some (dropEnd 3 word ++ ['f'])
    else if before == "ea" && fromEnd 6 lowered != some 'd' then some (dropEnd 3 word ++ ['f'])
    else if ["ni", "li", "wi"].contains before then some (dropEnd 3 word ++ ['f', 'e'])
    else none
  else none

/-- Replaces the last word of a text, of which `last` is that word. -/
private def replaceLast (word last : List Char) (single : String) : List Char :=
  dropEnd last.length word ++ single.toList

/-- Endings of every other kind, all of them in -s. -/
private def regular? (word lowered : List Char) (last : String) : Option (List Char) :=
  let less := fun count => some (dropEnd count word)
  if endsWith "houses" lowered || endsWith "shoes" lowered || losesOnlyS.contains last then less 1
  else if losesEs.contains last || endsWithAny ["sses", "uses"] lowered then less 2
  else if endsWith "zzes" lowered then less 3
  else if losesOnlySBeforeCh.contains last then less 1
  else if endsWithAny ["ches", "shes"] lowered then less 2
  else if losesOnlySBeforeX.contains last then less 1
  else if endsWith "xes" lowered then less 2
  else if losesOnlySAfterV.contains last then less 1
  else match fromVes? word lowered with
    | some single => some single
    | none =>
      if endsWith "ys" lowered && ((fromEnd 3 lowered).map isVowel).getD false then less 1
      else if endsWith "ies" lowered then some (dropEnd 3 word ++ ['y'])
      else if endsWith "oes" lowered then less 2
      else if fromIs.contains last then some (dropEnd 2 word ++ ['i', 's'])
      else if endsWith "ss" lowered then none
      else if endsWith "s" lowered then less 1
      else none

/-- The singular in the letters of the text, before its capitals are restored. -/
def rawSingularOf? (word : List Char) : Option (List Char) :=
  let lowered := lowerChars word
  let lastLowered := ((splitChars isBlank lowered).filter (!·.isEmpty)).getLast?.getD []
  let last := String.ofList lastLowered
  if unchanged.contains last || endsWithAny unchangedEndings lowered then none
  else match irregular.lookup last with
    | some single => some (replaceLast word lastLowered single)
    | none =>
      match irregularEndings.find? fun pair => endsWith pair.1 lowered with
      | some pair => some (dropEnd pair.1.length word ++ pair.2.toList)
      | none =>
        match classical.find? fun pair => endsWith pair.1 lowered with
        | some pair => some (dropEnd pair.1.length word ++ pair.2.toList)
        | none => regular? word lowered last

private def capitalised : List Char → List Char
  | [] => []
  | c :: rest => upperAsciiChar c :: lowerChars rest

/-- Gives a word the capitals of another: an initial capital, or all of them. -/
private def withCapitalsOf (model word : List Char) : List Char :=
  let word := if capitalised model == model then capitalised word else word
  if model.map upperAsciiChar == model then word.map upperAsciiChar else word

private def restoreCapitals : List (List Char) → List (List Char) → List (List Char)
  | model :: models, word :: words => withCapitalsOf model word :: restoreCapitals models words
  | _, words => words

/-- The singular of the last word of a text, or nothing if it is not a plural. -/
def singularOf? (text : List Char) : Option (List Char) :=
  let before := text.takeWhile isBlank
  let after := (text.reverse.takeWhile isBlank).reverse
  let word := stripChars text
  if word.isEmpty then some text
  else (rawSingularOf? word).map fun single =>
    let isSpace := fun c => c == ' '
    let words := restoreCapitals (splitChars isSpace word) (splitChars isSpace single)
    before ++ [' '].intercalate words ++ after

end TableModels.Naming.Plural
