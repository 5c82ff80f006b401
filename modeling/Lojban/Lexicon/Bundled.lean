import Lojban.Disk
import Lojban.Text.Utf8

/-!
# Bundled word lists

The word lists that come with the program. `Disk.withBundled` puts them at `bundledLocation`.
-/

namespace Lojban

/-- The particles, one a line: the word, its class, a short gloss and its meaning. A dot in front
stands for a pause. -/
def bundledCmavo : List String := [
  ".a          A         sumti or                  logical connective: sumti afterthought or.",
  "ba          PU        future                    time tense: will [selbri]; after [sumti]",
  "bai         BAI       bapli modal               bapli modal: compelled by",
  "be          BE        link sumti                attaches sumti to a selbri",
  "bei         BEI       link more sumti           separates multiple linked sumti",
  "bo          BO        short scope link          joins various constructs with shortest scope",
  "ca          PU        present                   time tense: now, simultaneous with",
  "ci          PA        3                         digit/number: three",
  "co          CO        tanru inversion           inverts tanru",
  "cu          CU        selbri separator          separates selbri from preceding sumti",
  "da          KOhA      something 1               logically quantified existential",
  "de          KOhA      something 2               logically quantified existential",
  "do          KOhA      you                       pro-sumti: you listener(s)",
  "doi         DOI       vocative marker           generic vocative marker",
  ".e          A         sumti and                 logical connective: sumti afterthought and.",
  "fa          FA        1st place                 tag: 1st sumti place",
  "fe          FA        2nd place                 tag: 2nd sumti place",
  "fi          FA        3rd place                 tag: 3rd sumti place",
  "fo          FA        4th place                 tag: 4th sumti place",
  "fu          FA        5th place                 tag: 5th sumti place",
  "gi          GI        connective medial         multipurpose word: separates forethought connectives",
  ".i          I         sentence link             sentence link/continuation",
  "ja          JA        tanru or                  logical connective: tanru afterthought or.",
  "je          JA        tanru and                 logical connective: tanru afterthought and.",
  "ka          NU        property abstractor       abstractor: property/quality abstractor",
  "ke          KE        start grouping            start grouping of tanru",
  "ke'e        KEhE      end grouping              elidable terminator: end grouping",
  "ku          KU        end sumti                 elidable terminator: end of description",
  "la          LA        that named                name descriptor: the one(s) called ...",
  "le          LE        the described             non-veridical descriptor: the one(s) described as ...",
  "lo          LE        the really is             veridical descriptor: the one(s) that really is(are) ...",
  "ma          KOhA      sumti question            pro-sumti: what/who/which?",
  "mi          KOhA      me                        pro-sumti: I, me; the speaker",
  "mo          GOhA      bridi question            pro-bridi: what is/does?",
  "na          NA        bridi negator             contradictory negation of bridi",
  "ne          NOI       which incidentally        incidental restrictive clause",
  "nu          NU        event abstractor          abstractor: generalized event",
  ".o          A         sumti iff                 logical connective: sumti afterthought iff",
  "pa          PA        1                         digit/number: one",
  "pe          GOI       restrictive phrase        restrictive relative phrase marker",
  "pi          PA        decimal point             number/digit: decimal point",
  "pu          PU        past                      time tense: did [selbri]; before [sumti]",
  "re          PA        2                         digit/number: two",
  "ro          PA        each                      digit/number: each, all",
  "se          SE        2nd conversion            convert 2nd place",
  "ta          KOhA      that there                pro-sumti: that there; nearby demonstrative it",
  "te          SE        3rd conversion            convert 3rd place",
  "ti          KOhA      this here                 pro-sumti: this here; immediate demonstrative it",
  "to          TO        open parenthesis          left parenthesis",
  "toi         TOI       close parenthesis         elidable terminator: right parenthesis",
  ".u          A         sumti whether-or-not      logical connective: sumti afterthought whether or not",
  "va          VA        there at                  location tense distance: near",
  "ve          SE        4th conversion            convert 4th place",
  "vau         VAU       end simple bridi          elidable terminator: end of sumti in simple bridi",
  "vo          PA        4                         digit/number: four",
  "xe          SE        5th conversion            convert 5th place",
  "zo          ZO        quote next word           quote next word only",
  "zu          VA        there at                  location tense distance: far"]

/-- The content words, one a line: the word, its combining forms, a short gloss and its place
structure. -/
def bundledGismu : List String := [
  "bacru bau     utter        x1 utters verbally/says/phonates/speaks [vocally makes sound] x2",
  "blanu bla     blue         x1 is blue [color adjective]",
  "bloti lo'i    boat         x1 is a boat/ship/vessel [vehicle] for carrying x2, propelled by x3",
  "cadzu dzu     walk         x1 walks/strides/paces on surface x2 using limbs x3",
  "cinri cni     interesting  x1 (abstraction) interests/is interesting to x2",
  "citka cti     eat          x1 eats/ingests/consumes (transitive verb) x2",
  "cusku cu'u    express      x1 (agent) expresses/says x2 (sedu'u/text/lu'e concept) for audience x3 via expressive medium x4",
  "dansu das     dance        x1 (individual, mass) dances to accompaniment/music/rhythm x2",
  "djica dji     desire       x1 desires/wants/wishes x2 (event/state) for purpose x3",
  "djuno jun ju'o know        x1 knows fact(s) x2 (du'u) about subject x3 by epistemology x4",
  "finti fin     invent       x1 invents/creates/composes/authors x2 for function/purpose x3 from existing elements/ideas x4",
  "gerku ger ge'u dog         x1 is a dog/canine/[bitch] of species/breed x2",
  "gleki gek     happy        x1 is happy/merry/glad/gleeful about x2 (event/state)",
  "jbena ben     born         x1 is born to x2 at time x3 [birthday] and place x4 [birthplace]; x1 is native to x4",
  "klama kla     come         x1 comes/goes to destination x2 from origin x3 via route x4 using means/vehicle x5",
  "lojbo jbo     Lojbanic     x1 reflects [Loglandic]/Lojbanic language/culture/nationality/community in aspect x2",
  "mlatu lat     cat          x1 is a cat/[puss/pussy/kitten] [feline animal] of species/breed x2",
  "nelci nel     fond         x1 is fond of/likes/has a taste for x2 (object/state)",
  "pelxu pel     yellow       x1 is yellow/golden [color adjective]",
  "prami pam     love         x1 loves x2",
  "sutra sut     fast         x1 is fast/swift/quick/hastes/rapid at doing/being/bringing about x2 (event/state)",
  "tavla tav ta'a talk        x1 talks/speaks to x2 about subject x3 in language x4",
  "viska vis vi'a see         x1 sees/views/perceives visually x2 under conditions x3",
  "xamgu xag     good for     x1 is good/beneficial/nice/[acceptable] for x2 by standard x3",
  "zarci zac za'i market      x1 is a market/store/exchange/shop(s) selling/trading (for) x2, operated by x3",
  "zdani zda     nest         x1 is a nest/house/lair/den/[home] of/for x2"]

/-- The combining forms, one a line: the form and the content word it stands for. -/
def bundledRafsi : List String := [
  "bau   bacru",
  "bla   blanu",
  "lo'i  bloti",
  "dzu   cadzu",
  "cni   cinri",
  "cti   citka",
  "cu'u  cusku",
  "das   dansu",
  "dji   djica",
  "jun   djuno",
  "ju'o  djuno",
  "fin   finti",
  "ger   gerku",
  "ge'u  gerku",
  "gek   gleki",
  "ben   jbena",
  "kla   klama",
  "jbo   lojbo",
  "lat   mlatu",
  "nel   nelci",
  "pel   pelxu",
  "pam   prami",
  "sut   sutra",
  "tav   tavla",
  "ta'a  tavla",
  "vis   viska",
  "vi'a  viska",
  "xag   xamgu",
  "zac   zarci",
  "za'i  zarci",
  "zda   zdani"]

/-- The bytes of a file with the given lines. -/
def fileOfLines (lines : List String) : List UInt8 :=
  Text.Utf8.encode (lines.flatMap fun line => line.toList ++ ['\n'])

/-- A disk with the bundled lists on it. -/
def Disk.withBundled (d : Disk) : Disk :=
  let d := d.writeFile (bundledLocation ++ ["cmavo.txt"]) (fileOfLines bundledCmavo)
  let d := d.writeFile (bundledLocation ++ ["gismu.txt"]) (fileOfLines bundledGismu)
  d.writeFile (bundledLocation ++ ["rafsi.txt"]) (fileOfLines bundledRafsi)

end Lojban
