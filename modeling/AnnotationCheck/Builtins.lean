import AnnotationCheck.Symbols

/-!
The class-likes that every PHP program knows without declaring them.
-/

namespace AnnotationCheck

/-- The names of the built-in class-likes, without a leading separator. -/
def builtinNames : List Text :=
  ["stdClass", "Closure", "Generator", "WeakReference", "WeakMap", "Fiber", "Attribute",
    "ReturnTypeWillChange", "AllowDynamicProperties", "SensitiveParameter", "Override",
    "SensitiveParameterValue", "__PHP_Incomplete_Class", "Traversable", "Iterator",
    "IteratorAggregate", "ArrayAccess", "Countable", "Serializable", "Stringable",
    "JsonSerializable", "UnitEnum", "BackedEnum", "Throwable", "Exception", "ErrorException",
    "Error", "CompileError", "ParseError", "TypeError", "ArgumentCountError", "ValueError",
    "ArithmeticError", "DivisionByZeroError", "UnhandledMatchError", "JsonException",
    "LogicException", "BadFunctionCallException", "BadMethodCallException", "DomainException",
    "InvalidArgumentException", "LengthException", "OutOfRangeException", "RuntimeException",
    "OutOfBoundsException", "OverflowException", "RangeException", "UnderflowException",
    "UnexpectedValueException", "DateTimeInterface", "DateTime", "DateTimeImmutable",
    "DateTimeZone", "DateInterval", "DatePeriod", "ArrayObject", "ArrayIterator",
    "RecursiveArrayIterator", "SplStack", "SplQueue", "SplDoublyLinkedList", "SplObjectStorage",
    "SplFixedArray", "SplHeap", "SplMinHeap", "SplMaxHeap", "SplPriorityQueue", "SplFileInfo",
    "SplFileObject", "SplTempFileObject", "SplSubject", "SplObserver", "IteratorIterator",
    "RecursiveIterator", "RecursiveIteratorIterator", "OuterIterator", "SeekableIterator",
    "FilterIterator", "CallbackFilterIterator", "LimitIterator", "InfiniteIterator",
    "NoRewindIterator", "AppendIterator", "MultipleIterator", "EmptyIterator", "CachingIterator",
    "RegexIterator", "DirectoryIterator", "FilesystemIterator", "RecursiveDirectoryIterator",
    "GlobIterator", "Reflector", "Reflection", "ReflectionClass", "ReflectionObject",
    "ReflectionMethod", "ReflectionFunction", "ReflectionFunctionAbstract", "ReflectionParameter",
    "ReflectionProperty", "ReflectionNamedType", "ReflectionUnionType", "ReflectionType",
    "ReflectionEnum", "ReflectionException", "PDO", "PDOStatement", "PDOException", "DOMDocument",
    "DOMElement", "DOMNode", "DOMXPath", "SimpleXMLElement", "XMLReader", "XMLWriter",
    "CurlHandle", "finfo", "IntlDateFormatter", "NumberFormatter", "Collator", "Random\\Randomizer"].map String.toList

/-- The full names of the built-in class-likes. -/
def builtinClasses : List Text := builtinNames.map (Union.separator :: ·)

end AnnotationCheck
