/-
The words of formulas. A word stands behind a backslash and ends before the first character that is
no letter.
-/
import PassCheck.Text.After

namespace PassCheck.Timing.Formula

/-- A letter of a word. -/
def isLetter (c : Char) : Bool := c.isAlpha

/-- The word that starts a text, and what follows it. -/
def word (cs : List Char) : String × List Char :=
  (String.ofList (cs.takeWhile isLetter), cs.dropWhile isLetter)

/-! ## Symbols -/

/-- Words for letters, signs, operators, relations and arrows: each is a symbol. -/
def symbols : List String :=
  ["AA", "AE", "BbbC", "BbbN", "BbbP", "BbbQ", "BbbR", "BbbZ", "Bumpeq", "Cap", "Colon", "Cup",
    "DH", "Delta", "Doteq", "Downarrow", "Equiv", "Finv", "Game", "Gamma", "H", "Im", "Join", "L",
    "Lambda", "Ldsh", "Leftarrow", "Leftrightarrow", "Lleftarrow", "Longleftarrow",
    "Longleftrightarrow", "Longrightarrow", "Lsh", "Nearrow", "Nwarrow", "O", "OE", "Omega", "P",
    "Phi", "Pi", "Psi", "QED", "Rdsh", "Re", "Rightarrow", "Rrightarrow", "Rsh", "S", "Searrow",
    "Sigma", "Subset", "Supset", "Swarrow", "Theta", "Thorn", "Uparrow", "Updownarrow", "Upsilon",
    "Vdash", "Vert", "Vvdash", "Xi", "aa", "ac", "acwopencirclearrow", "adots", "ae", "aleph",
    "alpha", "amalg", "angle", "approx", "approxeq", "approxident", "arceq", "ast", "asterisk",
    "asymp", "backcong", "backepsilon", "backprime", "backsim", "backsimeq", "backslash",
    "bagmember", "barleftarrow", "barvee", "barwedge", "because", "beta", "beth", "between",
    "bigcap", "bigcirc", "bigcup", "bigodot", "bigoplus", "bigotimes", "bigsqcup", "bigstar",
    "bigtriangledown", "bigtriangleup", "biguplus", "bigvee", "bigwedge", "blacksquare",
    "blacktriangle", "blacktriangledown", "blacktriangleleft", "blacktriangleright", "bot",
    "bowtie", "boxbar", "boxdot", "boxminus", "boxplus", "boxtimes", "bullet", "bumpeq", "c",
    "candra", "cap", "carriagereturn", "cdot", "cdotp", "cdots", "cent", "check", "checkmark",
    "chi", "circ", "circeq", "circlearrowleft", "circlearrowright", "circledR", "circledS",
    "circledast", "circledcirc", "circleddash", "circumflexaccent", "clubsuit", "clubsuitopen",
    "colon", "coloneq", "combiningacuteaccent", "combiningbreve", "combiningdiaeresis",
    "combiningdotabove", "combiningfourdotsabove", "combininggraveaccent", "combiningoverline",
    "combiningrightarrowabove", "combiningthreedotsabove", "combiningtilde", "complement", "cong",
    "coprod", "copyright", "cup", "cupdot", "cupleftarrow", "curlyeqprec", "curlyeqsucc",
    "curlyvee", "curlywedge", "curvearrowleft", "curvearrowright", "cwopencirclearrow", "d", "dag",
    "dagger", "daleth", "danger", "dashleftarrow", "dashrightarrow", "dashv", "ddag", "ddagger",
    "ddots", "degree", "delta", "dh", "diamond", "diamondsuit", "digamma", "disin", "div",
    "divideontimes", "doteq", "doteqdot", "dotminus", "dotplus", "dots", "dotsminusdots",
    "doublebarwedge", "downarrow", "downdownarrows", "downharpoonleft", "downharpoonright",
    "downzigzagarrow", "ell", "emdash", "emptyset", "endash", "epsilon", "eqcirc", "eqcolon",
    "eqdef", "eqgtr", "eqless", "eqsim", "eqslantgtr", "eqslantless", "equal", "equalparallel",
    "equiv", "eta", "eth", "exists", "fallingdotseq", "flat", "forall", "frakC", "frakZ", "frown",
    "gamma", "geq", "geqq", "geqslant", "gg", "ggg", "gimel", "gnapprox", "gneqq", "gnsim",
    "greater", "gtrapprox", "gtrdot", "gtreqless", "gtreqqless", "gtrless", "gtrsim",
    "guillemotleft", "guillemotright", "guilsinglleft", "guilsinglright", "hbar", "heartsuit",
    "hermitmatrix", "hookleftarrow", "hookrightarrow", "hslash", "i", "iiiint", "iiint", "iint",
    "imageof", "imath", "in", "increment", "infty", "int", "intercal", "invnot", "iota", "isinE",
    "isindot", "isinobar", "isins", "isinvb", "jmath", "k", "kappa", "kernelcontraction", "l",
    "lambda", "lambdabar", "langle", "lasp", "lbrace", "lbrack", "lceil", "ldots", "leadsto",
    "leftarrow", "leftarrowtail", "leftbrace", "leftharpoonaccent", "leftharpoondown",
    "leftharpoonup", "leftleftarrows", "leftparen", "leftrightarrow", "leftrightarrows",
    "leftrightharpoons", "leftrightsquigarrow", "leftsquigarrow", "leftthreetimes", "leq", "leqq",
    "leqslant", "less", "lessapprox", "lessdot", "lesseqgtr", "lesseqqgtr", "lessgtr", "lesssim",
    "lfloor", "lgroup", "lhd", "ll", "llcorner", "lll", "lnapprox", "lneqq", "lnsim",
    "longleftarrow", "longleftrightarrow", "longmapsto", "longrightarrow", "looparrowleft",
    "looparrowright", "lq", "lrcorner", "ltimes", "macron", "maltese", "mapsdown", "mapsfrom",
    "mapsto", "mapsup", "measeq", "measuredangle", "measuredrightangle", "merge", "mho", "mid",
    "minus", "minuscolon", "models", "mp", "mu", "multimap", "nLeftarrow", "nLeftrightarrow",
    "nRightarrow", "nVDash", "nVdash", "nabla", "napprox", "natural", "ncong", "ne", "nearrow",
    "neg", "neq", "nequiv", "nexists", "ngeq", "ngtr", "ngtrless", "ngtrsim", "ni", "niobar", "nis",
    "nisd", "nleftarrow", "nleftrightarrow", "nleq", "nless", "nlessgtr", "nlesssim", "nmid", "not",
    "notin", "notsmallowns", "nparallel", "nprec", "npreccurlyeq", "nrightarrow", "nsim", "nsimeq",
    "nsqsubseteq", "nsqsupseteq", "nsubset", "nsubseteq", "nsucc", "nsucccurlyeq", "nsupset",
    "nsupseteq", "ntriangleleft", "ntrianglelefteq", "ntriangleright", "ntrianglerighteq", "nu",
    "nvDash", "nvdash", "nwarrow", "o", "obar", "ocirc", "odot", "oe", "oequal", "oiiint", "oiint",
    "oint", "omega", "ominus", "oplus", "origof", "oslash", "otimes", "overarc",
    "overleftrightarrow", "parallel", "partial", "perp", "perthousand", "phi", "pi", "pitchfork",
    "plus", "pm", "prec", "precapprox", "preccurlyeq", "preceq", "precnapprox", "precnsim",
    "precsim", "prime", "prod", "propto", "prurel", "psi", "quad", "questeq", "rangle", "rasp",
    "ratio", "rbrace", "rbrack", "rceil", "rfloor", "rgroup", "rhd", "rho", "rightModels",
    "rightangle", "rightarrow", "rightarrowbar", "rightarrowtail", "rightassert", "rightbrace",
    "rightharpoonaccent", "rightharpoondown", "rightharpoonup", "rightleftarrows",
    "rightleftharpoons", "rightparen", "rightrightarrows", "rightsquigarrow", "rightthreetimes",
    "rightzigzagarrow", "ring", "risingdotseq", "rq", "rtimes", "scrB", "scrE", "scrF", "scrH",
    "scrI", "scrL", "scrM", "scrR", "scre", "scrg", "scro", "scurel", "searrow", "setminus",
    "sharp", "sigma", "sim", "simeq", "simneqq", "sinewave", "slash", "smallin",
    "smallintclockwise", "smallointctrcclockwise", "smallowns", "smallsetminus",
    "smallvarointclockwise", "smile", "solbar", "spadesuit", "spadesuitopen", "sphericalangle",
    "sqcap", "sqcup", "sqsubset", "sqsubseteq", "sqsubsetneq", "sqsupset", "sqsupseteq",
    "sqsupsetneq", "ss", "star", "stareq", "sterling", "subset", "subseteq", "subseteqq",
    "subsetneq", "subsetneqq", "succ", "succapprox", "succcurlyeq", "succeq", "succnapprox",
    "succnsim", "succsim", "sum", "supset", "supseteq", "supseteqq", "supsetneq", "supsetneqq",
    "swarrow", "t", "tau", "textasciiacute", "textasciicircum", "textasciigrave", "textasciitilde",
    "textexclamdown", "textquestiondown", "textquotedblleft", "textquotedblright", "therefore",
    "theta", "thickspace", "thorn", "times", "to", "top", "triangle", "triangledown", "triangleeq",
    "triangleleft", "trianglelefteq", "triangleq", "triangleright", "trianglerighteq", "turnednot",
    "twoheaddownarrow", "twoheadleftarrow", "twoheadrightarrow", "twoheaduparrow", "ulcorner",
    "underbar", "unlhd", "unrhd", "uparrow", "updownarrow", "updownarrowbar", "updownarrows",
    "upharpoonleft", "upharpoonright", "uplus", "upsilon", "upuparrows", "urcorner", "vDash",
    "varepsilon", "varisinobar", "varisins", "varkappa", "varlrtriangle", "varniobar", "varnis",
    "varnothing", "varphi", "varpi", "varpropto", "varrho", "varsigma", "vartheta", "vartriangle",
    "vartriangleleft", "vartriangleright", "vdash", "vdots", "vee", "veebar", "veeeq", "vert",
    "wedge", "wedgeq", "wp", "wr", "xi", "yen", "zeta"]

/-- Symbols that have what is raised above them, and what is lowered below. -/
def largeSymbols : List String :=
  ["bigcap", "bigcup", "bigodot", "bigoplus", "bigotimes", "bigsqcup", "biguplus", "bigvee",
    "bigwedge", "coprod", "prod", "sum"]

/-- The names of functions. -/
def functions : List String :=
  ["Pr", "arccos", "arcsin", "arctan", "arg", "cos", "cosh", "cot", "coth", "csc", "deg", "det",
    "dim", "exp", "gcd", "hom", "inf", "ker", "lg", "lim", "liminf", "limsup", "ln", "log", "max",
    "min", "sec", "sin", "sinh", "sup", "tan", "tanh"]

/-- Functions that have what is raised above them, and what is lowered below. -/
def largeFunctions : List String := ["lim", "liminf", "limsup", "max", "min", "sup"]

/-- Signs that are symbols behind a backslash. -/
def escaped : List Char := "%$\x7b\x7d[]_|".toList

/-- A character that is a symbol by itself. -/
def isSymbol (c : Char) : Bool :=
  c.isAlphanum || " +-*/<>=:,.;!?&'@()[]|".toList.contains c ||
    (0x80 ≤ c.toNat && c.toNat ≤ 0x1ffff)

/-- Signs of binary operators. -/
def operatorSigns : List Char := "+-*\u2212".toList

/-- A sign that has room around it. -/
def isSpaced (c : Char) : Bool := operatorSigns.contains c || "=<>:,;.!".toList.contains c

/-- Words for binary operators. -/
def operators : List String :=
  ["Cap", "Cup", "amalg", "ast", "barvee", "barwedge", "bigcirc", "bigtriangledown",
    "bigtriangleup", "boxbar", "boxdot", "boxminus", "boxplus", "boxtimes", "bullet", "cap",
    "cdot", "circ", "circledast", "circledcirc", "circleddash", "cup", "cupdot", "curlyvee",
    "curlywedge", "dagger", "ddagger", "diamond", "div", "divideontimes", "dotminus", "dotplus",
    "dotsminusdots", "doublebarwedge", "intercal", "leftthreetimes", "lhd", "merge", "minuscolon",
    "mp", "obar", "odot", "ominus", "oplus", "oslash", "otimes", "pm", "rhd", "rightthreetimes",
    "setminus", "slash", "sqcap", "sqcup", "star", "times", "triangleleft", "triangleright",
    "unlhd", "unrhd", "uplus", "vee", "veebar", "wedge", "wr"]

/-- Words for relations and arrows, and the raised dot of punctuation. -/
def relations : List String :=
  ["Downarrow", "Join", "Leftarrow", "Leftrightarrow", "Longleftarrow", "Longleftrightarrow",
    "Longrightarrow", "Rightarrow", "Subset", "Supset", "Uparrow", "Updownarrow", "approx",
    "approxeq", "asymp", "backsim", "backsimeq", "bowtie", "cdotp", "cong", "dashv", "doteq",
    "doteqdot", "dots", "downarrow", "eqgtr", "eqless", "eqslantgtr", "eqslantless", "equiv",
    "frown", "geq", "geqq", "geqslant", "gg", "gneqq", "gnsim", "gtrapprox", "gtreqless",
    "gtreqqless", "gtrsim", "hookleftarrow", "hookrightarrow", "in", "leadsto", "leftarrow",
    "leftharpoondown", "leftharpoonup", "leftrightarrow", "leq", "leqq", "leqslant", "lessapprox",
    "lesseqgtr", "lesseqqgtr", "lessgtr", "lesssim", "ll", "lneqq", "lnsim", "longleftarrow",
    "longleftrightarrow", "longmapsto", "longrightarrow", "mapsto", "mid", "models", "nearrow",
    "neq", "ni", "nsim", "nwarrow", "parallel", "perp", "prec", "precapprox", "preceq",
    "precnapprox", "precnsim", "precsim", "propto", "rightarrow", "rightharpoondown",
    "rightharpoonup", "rightleftharpoons", "searrow", "sim", "simeq", "smile", "sqsubset",
    "sqsubseteq", "sqsupset", "sqsupseteq", "subset", "subseteq", "subseteqq", "subsetneq",
    "subsetneqq", "succ", "succapprox", "succeq", "succnapprox", "succnsim", "succsim", "supset",
    "supseteq", "supseteqq", "supsetneq", "supsetneqq", "swarrow", "uparrow", "updownarrow",
    "vdash"]

/-! ## Other words -/

/-- Marks over the item that follows, by words. -/
def accents : List String :=
  ["acute", "bar", "breve", "ddddot", "dddot", "ddot", "dot", "grave", "hat", "mathring",
    "overleftarrow", "overrightarrow", "tilde", "vec", "widebar", "widehat", "widetilde"]

/-- Marks over the item that follows, by signs. -/
def accentSigns : List Char := "\"`'~.^".toList

/-- Kinds of type. -/
def fonts : List String :=
  ["bfit", "bb", "bf", "cal", "default", "frak", "it", "normal", "regular", "rm", "scr", "sf", "tt"]

/-- Spaces. Letters may follow them directly. -/
def spaces : List String :=
  ["\\,", "\\thinspace", "\\/", "\\>", "\\:", "\\;", "\\ ", "~", "\\enspace", "\\quad",
    "\\qquad", "\\!"]

/-- Delimiters. Letters may follow them directly. -/
def delimiters : List String :=
  ["|", "\\|", "/", "\\backslash", "\\uparrow", "\\downarrow", "\\updownarrow", "\\Uparrow",
    "\\Downarrow", "\\Updownarrow", ".", "\\vert", "\\Vert", "(", "[", "\\\x7b", "<", "\\lfloor",
    "\\langle", "\\lceil", "\\lbrace", "\\leftbrace", "\\lbrack", "\\leftparen", "\\lgroup", ")",
    "]", "\\\x7d", ">", "\\rfloor", "\\rangle", "\\rceil", "\\rbrace", "\\rightbrace", "\\rbrack",
    "\\rightparen", "\\rgroup"]

/-- The first of some texts that starts another, and what follows it. -/
def oneOf? (texts : List String) (cs : List Char) : Option (String × List Char) :=
  texts.findSome? fun t => (Text.after? t.toList cs).map fun rest => (t, rest)

/-- The word of a set that starts a text behind a backslash, and what follows it. -/
def wordOf? (words : List String) : List Char → Option (String × List Char)
  | '\\' :: cs => if words.contains (word cs).1 then some (word cs) else none
  | _ => none

/-- The accent that starts a text, with what follows it. -/
def accent? (cs : List Char) : Option (List Char) :=
  match wordOf? accents cs, cs with
  | some (_, rest), _ => some rest
  | none, '\\' :: c :: rest => if accentSigns.contains c then some rest else none
  | none, _ => none

end PassCheck.Timing.Formula
