/-
# MediaSniff.Builtin.Text — text and program sources in the built-in database

Plain and structured text and program sources, and before them the sentinels.
-/
import MediaSniff.Descriptor

set_option autoImplicit false

namespace MediaSniff.Builtin

/-- The entries of these types, in the order of their numbers. -/
def texts : List Descriptor.Entry := [
    { name := "application/octet-stream"
      comment := "unknown"
      genericIcon := some "application-x-generic" },
    { name := "text/plain"
      comment := "plain text document"
      genericIcon := some "text-x-generic"
      globs := [{ pattern := "*.txt" }, { pattern := "*.asc" }, { pattern := "*,v" }] },
    { name := "application/x-zerosize"
      comment := "empty document" },
    { name := "inode/directory"
      comment := "folder"
      genericIcon := some "folder" },
    { name := "application/xml"
      comment := "XML document"
      acronym := some "XML"
      expandedAcronym := some "eXtensible Markup Language"
      aliases := ["text/xml"]
      subClassOf := ["text/plain"]
      globs := [
        { pattern := "*.xml" },
        { pattern := "*.xbl" },
        { pattern := "*.xsd" },
        { pattern := "*.rng" }]
      magic := [
        { priority := some 40,
          tests := [
            { offset := "0", kind := "string", value := "<?xml" },
            { offset := "0", kind := "string", value := "<!--" }] }] },
    { name := "application/xml-external-parsed-entity"
      comment := "XML entities document"
      aliases := ["text/xml-external-parsed-entity"]
      subClassOf := ["application/xml"]
      globs := [{ pattern := "*.ent" }] },
    { name := "application/javascript"
      comment := "JavaScript program"
      aliases := ["application/x-javascript", "text/javascript"]
      subClassOf := ["text/plain"]
      globs := [
        { pattern := "*.js" },
        { pattern := "*.jsm" },
        { pattern := "*.mjs" }] },
    { name := "application/json"
      comment := "JSON document"
      acronym := some "JSON"
      expandedAcronym := some "JavaScript Object Notation"
      aliases := ["application/schema+json"]
      subClassOf := ["application/javascript"]
      globs := [{ pattern := "*.json" }] },
    { name := "application/ld+json"
      comment := "JSON-LD document"
      acronym := some "JSON-LD"
      expandedAcronym := some "JavaScript Object Notation for Linked Data"
      subClassOf := ["application/json"]
      globs := [{ pattern := "*.jsonld" }] },
    { name := "text/css"
      comment := "CSS stylesheet"
      acronym := some "CSS"
      expandedAcronym := some "Cascading Style Sheets"
      subClassOf := ["text/plain"]
      globs := [{ pattern := "*.css" }] },
    { name := "text/html"
      comment := "HTML document"
      acronym := some "HTML"
      expandedAcronym := some "HyperText Markup Language"
      subClassOf := ["text/plain"]
      globs := [{ pattern := "*.html" }, { pattern := "*.htm" }]
      magic := [
        { priority := some 50,
          tests := [
            { offset := "0:256",
              kind := "string",
              value := "<!DOCTYPE HTML",
              mask := some "0xffffdfdfdfdfdfdfdfffdfdfdfdf" },
            { offset := "0:256",
              kind := "string",
              value := "<HTML",
              mask := some "0xffdfdfdfdf" }] }] },
    { name := "text/markdown"
      comment := "Markdown document"
      aliases := ["text/x-markdown"]
      subClassOf := ["text/plain"]
      globs := [
        { pattern := "*.md" },
        { pattern := "*.mkd" },
        { pattern := "*.markdown" }] },
    { name := "text/x-makefile"
      comment := "Makefile"
      subClassOf := ["text/plain"]
      globs := [
        { pattern := "makefile" },
        { pattern := "gnumakefile" },
        { pattern := "makefile.*" },
        { pattern := "*.mk" },
        { pattern := "*.mak" }]
      magic := [
        { priority := some 10,
          tests := [
            { offset := "0", kind := "string", value := "#!/usr/bin/make" },
            { offset := "0", kind := "string", value := "#! /usr/bin/make" }] }] },
    { name := "text/x-readme"
      comment := "README document"
      subClassOf := ["text/plain"]
      globs := [{ pattern := "README*", weight := some 10 }] },
    { name := "text/x-copying"
      comment := "license terms"
      subClassOf := ["text/plain"]
      globs := [{ pattern := "COPYING", weight := some 60, caseSensitive := true }] },
    { name := "text/x-csrc"
      comment := "C source code"
      aliases := ["text/x-c"]
      subClassOf := ["text/plain"]
      globs := [{ pattern := "*.c", caseSensitive := true }] },
    { name := "text/x-chdr"
      comment := "C header"
      subClassOf := ["text/x-csrc"]
      globs := [{ pattern := "*.h" }] },
    { name := "text/x-c++src"
      comment := "C++ source code"
      aliases := ["text/x-c++"]
      subClassOf := ["text/x-csrc"]
      globs := [
        { pattern := "*.cpp" },
        { pattern := "*.cxx" },
        { pattern := "*.cc" },
        { pattern := "*.C", caseSensitive := true }] },
    { name := "text/x-java"
      comment := "Java source code"
      subClassOf := ["text/x-csrc"]
      globs := [{ pattern := "*.java" }] },
    { name := "text/rust"
      comment := "Rust source code"
      aliases := ["text/x-rust"]
      subClassOf := ["text/plain"]
      globs := [{ pattern := "*.rs" }] },
    { name := "text/x-python"
      comment := "Python script"
      aliases := ["text/x-python3"]
      subClassOf := ["text/plain"]
      globs := [{ pattern := "*.py" }, { pattern := "*.pyw" }]
      magic := [
        { priority := some 50,
          tests := [
            { offset := "0", kind := "string", value := "#!/bin/python" },
            { offset := "0", kind := "string", value := "#! /bin/python" },
            { offset := "0", kind := "string", value := "#!/usr/bin/python" },
            { offset := "0", kind := "string", value := "#! /usr/bin/python" },
            { offset := "0", kind := "string", value := "#!/usr/bin/env python" },
            { offset := "0", kind := "string", value := "#! /usr/bin/env python" }] }] },
    { name := "application/x-shellscript"
      comment := "shell script"
      aliases := ["text/x-sh"]
      subClassOf := ["text/plain"]
      globs := [{ pattern := "*.sh" }]
      magic := [
        { priority := some 50,
          tests := [
            { offset := "0", kind := "string", value := "#!/bin/sh" },
            { offset := "0", kind := "string", value := "#! /bin/sh" },
            { offset := "0", kind := "string", value := "#!/bin/bash" },
            { offset := "0", kind := "string", value := "#! /bin/bash" },
            { offset := "0", kind := "string", value := "#!/usr/bin/env sh" },
            { offset := "0", kind := "string", value := "#!/usr/bin/env bash" },
            { offset := "0", kind := "string", value := "#!/bin/dash" }] }] },
    { name := "text/x-matlab"
      comment := "MATLAB script/function"
      subClassOf := ["text/plain"]
      globs := [{ pattern := "*.m" }] },
    { name := "text/x-objcsrc"
      comment := "Objective-C source code"
      subClassOf := ["text/x-csrc"]
      globs := [{ pattern := "*.m" }] },
    { name := "text/x-troff-man"
      comment := "Manpage manual document"
      aliases := ["application/x-troff-man"]
      subClassOf := ["text/plain"]
      globs := [{ pattern := "*.man" }, { pattern := "*.[1-9]" }] },
    { name := "text/csv"
      comment := "CSV document"
      acronym := some "CSV"
      expandedAcronym := some "Comma Separated Values"
      aliases := ["text/x-csv"]
      subClassOf := ["text/plain"]
      globs := [{ pattern := "*.csv" }] }]

end MediaSniff.Builtin
