import Scaffold.Text.Basic

/-!
# Operations on texts

Templates are shown texts together with the operations that texts have.  `TextOperation` is what
there is to say of such an operation: its name, how it is called, and what it does.
`TextOperation.named?` finds an operation by its name.
-/

namespace Scaffold

/-- An operation on texts. -/
structure TextOperation where
  /-- The name. -/
  name : String
  /-- How it is called, if there is a single way. -/
  signature? : Option String
  /-- What it does, line by line; empty if nothing is said of it. -/
  description : List String
  deriving DecidableEq, Repr

namespace TextOperation

/-- The operations that go by signs or by the context. -/
def bySign : List TextOperation := [
    ⟨"__add__", some "($self, value, /)", ["Return self+value."]⟩,
    ⟨"__contains__", some "($self, key, /)", ["Return key in self."]⟩,
    ⟨"__delattr__", some "($self, name, /)", ["Implement delattr(self, name)."]⟩,
    ⟨"__eq__", some "($self, value, /)", ["Return self==value."]⟩,
    ⟨"__ge__", some "($self, value, /)", ["Return self>=value."]⟩,
    ⟨"__getattribute__", some "($self, name, /)", ["Return getattr(self, name)."]⟩,
    ⟨"__getitem__", some "($self, key, /)", ["Return self[key]."]⟩,
    ⟨"__gt__", some "($self, value, /)", ["Return self>value."]⟩,
    ⟨"__hash__", some "($self, /)", ["Return hash(self)."]⟩,
    ⟨"__init__", some "($self, /, *args, **kwargs)",
      ["Initialize self.  See help(type(self)) for accurate signature."]⟩,
    ⟨"__iter__", some "($self, /)", ["Implement iter(self)."]⟩,
    ⟨"__le__", some "($self, value, /)", ["Return self<=value."]⟩,
    ⟨"__len__", some "($self, /)", ["Return len(self)."]⟩,
    ⟨"__lt__", some "($self, value, /)", ["Return self<value."]⟩,
    ⟨"__mod__", some "($self, value, /)", ["Return self%value."]⟩,
    ⟨"__mul__", some "($self, value, /)", ["Return self*value."]⟩,
    ⟨"__ne__", some "($self, value, /)", ["Return self!=value."]⟩,
    ⟨"__repr__", some "($self, /)", ["Return repr(self)."]⟩,
    ⟨"__rmod__", some "($self, value, /)", ["Return value%self."]⟩,
    ⟨"__rmul__", some "($self, value, /)", ["Return value*self."]⟩,
    ⟨"__setattr__", some "($self, name, value, /)", ["Implement setattr(self, name, value)."]⟩,
    ⟨"__str__", some "($self, /)", ["Return str(self)."]⟩]

/-- The operations that go by their names. -/
def byName : List TextOperation := [
    ⟨"__dir__", some "($self, /)", ["Default dir() implementation."]⟩,
    ⟨"__format__", some "($self, format_spec, /)",
      ["Return a formatted version of the string as described by format_spec."]⟩,
    ⟨"__getnewargs__", none, []⟩,
    ⟨"__getstate__", some "($self, /)", ["Helper for pickle."]⟩,
    ⟨"__init_subclass__", none,
      ["This method is called when a class is subclassed.", "",
        "The default implementation does nothing. It may be", "overridden to extend subclasses.",
        ""]⟩,
    ⟨"__new__", some "($type, *args, **kwargs)",
      ["Create and return a new object.  See help(type) for accurate signature."]⟩,
    ⟨"__reduce__", some "($self, /)", ["Helper for pickle."]⟩,
    ⟨"__reduce_ex__", some "($self, protocol, /)", ["Helper for pickle."]⟩,
    ⟨"__sizeof__", some "($self, /)", ["Return the size of the string in memory, in bytes."]⟩,
    ⟨"__subclasshook__", none,
      ["Abstract classes can override this to customize issubclass().", "",
        "This is invoked early on by abc.ABCMeta.__subclasscheck__().",
        "It should return True, False or NotImplemented.  If it returns",
        "NotImplemented, the normal algorithm is used.  Otherwise, it",
        "overrides the normal algorithm (and the outcome is cached).", ""]⟩,
    ⟨"capitalize", some "($self, /)",
      ["Return a capitalized version of the string.", "",
        "More specifically, make the first character have upper case and the rest lower", "case."]⟩,
    ⟨"casefold", some "($self, /)",
      ["Return a version of the string suitable for caseless comparisons."]⟩,
    ⟨"center", some "($self, width, fillchar=' ', /)",
      ["Return a centered string of length width.", "",
        "Padding is done using the specified fill character (default is a space)."]⟩,
    ⟨"count", none,
      ["S.count(sub[, start[, end]]) -> int", "",
        "Return the number of non-overlapping occurrences of substring sub in",
        "string S[start:end].  Optional arguments start and end are",
        "interpreted as in slice notation."]⟩,
    ⟨"encode", some "($self, /, encoding='utf-8', errors='strict')",
      ["Encode the string using the codec registered for encoding.", "", "  encoding",
        "    The encoding in which to encode the string.", "  errors",
        "    The error handling scheme to use for encoding errors.",
        "    The default is 'strict' meaning that encoding errors raise a",
        "    UnicodeEncodeError.  Other possible values are 'ignore', 'replace' and",
        "    'xmlcharrefreplace' as well as any other name registered with",
        "    codecs.register_error that can handle UnicodeEncodeErrors."]⟩,
    ⟨"endswith", none,
      ["S.endswith(suffix[, start[, end]]) -> bool", "",
        "Return True if S ends with the specified suffix, False otherwise.",
        "With optional start, test S beginning at that position.",
        "With optional end, stop comparing S at that position.",
        "suffix can also be a tuple of strings to try."]⟩,
    ⟨"expandtabs", some "($self, /, tabsize=8)",
      ["Return a copy where all tab characters are expanded using spaces.", "",
        "If tabsize is not given, a tab size of 8 characters is assumed."]⟩,
    ⟨"find", none,
      ["S.find(sub[, start[, end]]) -> int", "",
        "Return the lowest index in S where substring sub is found,",
        "such that sub is contained within S[start:end].  Optional",
        "arguments start and end are interpreted as in slice notation.", "",
        "Return -1 on failure."]⟩,
    ⟨"format", none,
      ["S.format(*args, **kwargs) -> str", "",
        "Return a formatted version of S, using substitutions from args and kwargs.",
        "The substitutions are identified by braces ('\x7b' and '\x7d')."]⟩,
    ⟨"format_map", none,
      ["S.format_map(mapping) -> str", "",
        "Return a formatted version of S, using substitutions from mapping.",
        "The substitutions are identified by braces ('\x7b' and '\x7d')."]⟩,
    ⟨"index", none,
      ["S.index(sub[, start[, end]]) -> int", "",
        "Return the lowest index in S where substring sub is found,",
        "such that sub is contained within S[start:end].  Optional",
        "arguments start and end are interpreted as in slice notation.", "",
        "Raises ValueError when the substring is not found."]⟩,
    ⟨"isalnum", some "($self, /)",
      ["Return True if the string is an alpha-numeric string, False otherwise.", "",
        "A string is alpha-numeric if all characters in the string are alpha-numeric and",
        "there is at least one character in the string."]⟩,
    ⟨"isalpha", some "($self, /)",
      ["Return True if the string is an alphabetic string, False otherwise.", "",
        "A string is alphabetic if all characters in the string are alphabetic and there",
        "is at least one character in the string."]⟩,
    ⟨"isascii", some "($self, /)",
      ["Return True if all characters in the string are ASCII, False otherwise.", "",
        "ASCII characters have code points in the range U+0000-U+007F.",
        "Empty string is ASCII too."]⟩,
    ⟨"isdecimal", some "($self, /)",
      ["Return True if the string is a decimal string, False otherwise.", "",
        "A string is a decimal string if all characters in the string are decimal and",
        "there is at least one character in the string."]⟩,
    ⟨"isdigit", some "($self, /)",
      ["Return True if the string is a digit string, False otherwise.", "",
        "A string is a digit string if all characters in the string are digits and there",
        "is at least one character in the string."]⟩,
    ⟨"isidentifier", some "($self, /)",
      ["Return True if the string is a valid Python identifier, False otherwise.", "",
        "Call keyword.iskeyword(s) to test whether string s is a reserved identifier,",
        "such as \"def\" or \"class\"."]⟩,
    ⟨"islower", some "($self, /)",
      ["Return True if the string is a lowercase string, False otherwise.", "",
        "A string is lowercase if all cased characters in the string are lowercase and",
        "there is at least one cased character in the string."]⟩,
    ⟨"isnumeric", some "($self, /)",
      ["Return True if the string is a numeric string, False otherwise.", "",
        "A string is numeric if all characters in the string are numeric and there is at",
        "least one character in the string."]⟩,
    ⟨"isprintable", some "($self, /)",
      ["Return True if the string is printable, False otherwise.", "",
        "A string is printable if all of its characters are considered printable in",
        "repr() or if it is empty."]⟩,
    ⟨"isspace", some "($self, /)",
      ["Return True if the string is a whitespace string, False otherwise.", "",
        "A string is whitespace if all characters in the string are whitespace and there",
        "is at least one character in the string."]⟩,
    ⟨"istitle", some "($self, /)",
      ["Return True if the string is a title-cased string, False otherwise.", "",
        "In a title-cased string, upper- and title-case characters may only",
        "follow uncased characters and lowercase characters only cased ones."]⟩,
    ⟨"isupper", some "($self, /)",
      ["Return True if the string is an uppercase string, False otherwise.", "",
        "A string is uppercase if all cased characters in the string are uppercase and",
        "there is at least one cased character in the string."]⟩,
    ⟨"join", some "($self, iterable, /)",
      ["Concatenate any number of strings.", "",
        "The string whose method is called is inserted in between each given string.",
        "The result is returned as a new string.", "",
        "Example: '.'.join(['ab', 'pq', 'rs']) -> 'ab.pq.rs'"]⟩,
    ⟨"ljust", some "($self, width, fillchar=' ', /)",
      ["Return a left-justified string of length width.", "",
        "Padding is done using the specified fill character (default is a space)."]⟩,
    ⟨"lower", some "($self, /)", ["Return a copy of the string converted to lowercase."]⟩,
    ⟨"lstrip", some "($self, chars=None, /)",
      ["Return a copy of the string with leading whitespace removed.", "",
        "If chars is given and not None, remove characters in chars instead."]⟩,
    ⟨"maketrans", some "(x, y=<unrepresentable>, z=<unrepresentable>, /)",
      ["Return a translation table usable for str.translate().", "",
        "If there is only one argument, it must be a dictionary mapping Unicode",
        "ordinals (integers) or characters to Unicode ordinals, strings or None.",
        "Character keys will be then converted to ordinals.",
        "If there are two arguments, they must be strings of equal length, and",
        "in the resulting dictionary, each character in x will be mapped to the",
        "character at the same position in y. If there is a third argument, it",
        "must be a string, whose characters will be mapped to None in the result."]⟩,
    ⟨"partition", some "($self, sep, /)",
      ["Partition the string into three parts using the given separator.", "",
        "This will search for the separator in the string.  If the separator is found,",
        "returns a 3-tuple containing the part before the separator, the separator",
        "itself, and the part after it.", "",
        "If the separator is not found, returns a 3-tuple containing the original string",
        "and two empty strings."]⟩,
    ⟨"removeprefix", some "($self, prefix, /)",
      ["Return a str with the given prefix string removed if present.", "",
        "If the string starts with the prefix string, return string[len(prefix):].",
        "Otherwise, return a copy of the original string."]⟩,
    ⟨"removesuffix", some "($self, suffix, /)",
      ["Return a str with the given suffix string removed if present.", "",
        "If the string ends with the suffix string and that suffix is not empty,",
        "return string[:-len(suffix)]. Otherwise, return a copy of the original", "string."]⟩,
    ⟨"replace", some "($self, old, new, count=-1, /)",
      ["Return a copy with all occurrences of substring old replaced by new.", "", "  count",
        "    Maximum number of occurrences to replace.",
        "    -1 (the default value) means replace all occurrences.", "",
        "If the optional argument count is given, only the first count occurrences are",
        "replaced."]⟩,
    ⟨"rfind", none,
      ["S.rfind(sub[, start[, end]]) -> int", "",
        "Return the highest index in S where substring sub is found,",
        "such that sub is contained within S[start:end].  Optional",
        "arguments start and end are interpreted as in slice notation.", "",
        "Return -1 on failure."]⟩,
    ⟨"rindex", none,
      ["S.rindex(sub[, start[, end]]) -> int", "",
        "Return the highest index in S where substring sub is found,",
        "such that sub is contained within S[start:end].  Optional",
        "arguments start and end are interpreted as in slice notation.", "",
        "Raises ValueError when the substring is not found."]⟩,
    ⟨"rjust", some "($self, width, fillchar=' ', /)",
      ["Return a right-justified string of length width.", "",
        "Padding is done using the specified fill character (default is a space)."]⟩,
    ⟨"rpartition", some "($self, sep, /)",
      ["Partition the string into three parts using the given separator.", "",
        "This will search for the separator in the string, starting at the end. If",
        "the separator is found, returns a 3-tuple containing the part before the",
        "separator, the separator itself, and the part after it.", "",
        "If the separator is not found, returns a 3-tuple containing two empty strings",
        "and the original string."]⟩,
    ⟨"rsplit", some "($self, /, sep=None, maxsplit=-1)",
      ["Return a list of the substrings in the string, using sep as the separator string.", "",
        "  sep", "    The separator used to split the string.", "",
        "    When set to None (the default value), will split on any whitespace",
        "    character (including \\n \\r \\t \\f and spaces) and will discard",
        "    empty strings from the result.", "  maxsplit", "    Maximum number of splits.",
        "    -1 (the default value) means no limit.", "",
        "Splitting starts at the end of the string and works to the front."]⟩,
    ⟨"rstrip", some "($self, chars=None, /)",
      ["Return a copy of the string with trailing whitespace removed.", "",
        "If chars is given and not None, remove characters in chars instead."]⟩,
    ⟨"split", some "($self, /, sep=None, maxsplit=-1)",
      ["Return a list of the substrings in the string, using sep as the separator string.", "",
        "  sep", "    The separator used to split the string.", "",
        "    When set to None (the default value), will split on any whitespace",
        "    character (including \\n \\r \\t \\f and spaces) and will discard",
        "    empty strings from the result.", "  maxsplit", "    Maximum number of splits.",
        "    -1 (the default value) means no limit.", "",
        "Splitting starts at the front of the string and works to the end.", "",
        "Note, str.split() is mainly useful for data that has been intentionally",
        "delimited.  With natural text that includes punctuation, consider using",
        "the regular expression module."]⟩,
    ⟨"splitlines", some "($self, /, keepends=False)",
      ["Return a list of the lines in the string, breaking at line boundaries.", "",
        "Line breaks are not included in the resulting list unless keepends is given and",
        "true."]⟩,
    ⟨"startswith", none,
      ["S.startswith(prefix[, start[, end]]) -> bool", "",
        "Return True if S starts with the specified prefix, False otherwise.",
        "With optional start, test S beginning at that position.",
        "With optional end, stop comparing S at that position.",
        "prefix can also be a tuple of strings to try."]⟩,
    ⟨"strip", some "($self, chars=None, /)",
      ["Return a copy of the string with leading and trailing whitespace removed.", "",
        "If chars is given and not None, remove characters in chars instead."]⟩,
    ⟨"swapcase", some "($self, /)",
      ["Convert uppercase characters to lowercase and lowercase characters to uppercase."]⟩,
    ⟨"title", some "($self, /)",
      ["Return a version of the string where each word is titlecased.", "",
        "More specifically, words start with uppercased characters and all remaining",
        "cased characters have lower case."]⟩,
    ⟨"translate", some "($self, table, /)",
      ["Replace each character in the string using the given translation table.", "", "  table",
        "    Translation table, which must be a mapping of Unicode ordinals to",
        "    Unicode ordinals, strings, or None.", "",
        "The table must implement lookup/indexing via __getitem__, for instance a",
        "dictionary or list.  If this operation raises LookupError, the character is",
        "left untouched.  Characters mapped to None are deleted."]⟩,
    ⟨"upper", some "($self, /)", ["Return a copy of the string converted to uppercase."]⟩,
    ⟨"zfill", some "($self, width, /)",
      ["Pad a numeric string with zeros on the left, to fill a field of the given width.", "",
        "The string is never truncated."]⟩]

/-- The names of the operations that all subjects have. -/
def commonNames : List String :=
  ["__delattr__", "__dir__", "__getstate__", "__init__", "__reduce__", "__reduce_ex__",
    "__setattr__"]

/-- The name of the operation on no text at all. -/
def freeName : String := "maketrans"

/-- The names of the operations on the kind of texts as a whole. -/
def kindNames : List String := ["__init_subclass__", "__new__", "__subclasshook__", freeName]

/-- The operation with a name. -/
def named? (name : Text) : Option TextOperation :=
  (bySign ++ byName).find? fun o => Text.ofString o.name = name

variable (o : TextOperation)

/-- The operation goes by a sign or by the context. -/
def isSign : Bool := bySign.contains o

/-- The operation is one on the kind of texts as a whole. -/
def isOfKind : Bool := kindNames.contains o.name

/-- The operation needs neither a text nor a kind. -/
def isFree : Bool := o.name = freeName

/-- The kind of the subjects that have the operation. -/
def ownerName : Text := if commonNames.contains o.name then "object" else "str"

end TextOperation

end Scaffold
